/-! Key presses and the characters that a terminal sends for them. Most keys send one character; the
others send a sequence that starts with an escape. -/
namespace ChipEight

inductive NamedKey
  | enter | tab | backTab | backspace | delete | insert
  | up | down | left | right | home | endKey | pageUp | pageDown
  | function (n : Nat)
  deriving DecidableEq

def NamedKey.name : NamedKey → String
  | enter => "Enter"
  | tab => "Tab"
  | backTab => "BackTab"
  | backspace => "Backspace"
  | delete => "Delete"
  | insert => "Insert"
  | up => "Up"
  | down => "Down"
  | left => "Left"
  | right => "Right"
  | home => "Home"
  | endKey => "End"
  | pageUp => "PageUp"
  | pageDown => "PageDown"
  | function n => "F(" ++ n.repr ++ ")"

inductive KeyPress
  | char (c : Char)
  | escape
  | named (key : NamedKey)
  deriving DecidableEq

namespace KeyPress

/-- The key that sends a character. A control character comes from the key it is combined with. -/
def ofChar (c : Char) : KeyPress :=
  let n := c.toNat
  if c = '\r' then .named .enter
  else if c = '\t' then .named .tab
  else if c = '\x7f' then .named .backspace
  else if c = '\x1b' then .escape
  else if n = 0 then .char ' '
  else if n ≤ 26 then .char (Char.ofNat (n - 1 + 'a'.toNat))
  else if n < 32 then .char (Char.ofNat (n - 28 + '4'.toNat))
  else .char c

def ofLetter? : Char → Option NamedKey
  | 'A' => some .up
  | 'B' => some .down
  | 'C' => some .right
  | 'D' => some .left
  | 'F' => some .endKey
  | 'H' => some .home
  | _ => none

/-- Function keys that have a letter of their own, the first of them `base`. -/
def functionOf? (base c : Char) (count : Nat) : Option NamedKey :=
  if base.toNat ≤ c.toNat ∧ c.toNat < base.toNat + count then
    some (.function (c.toNat - base.toNat + 1))
  else none

def ofNumber? (n : Nat) : Option NamedKey :=
  if n = 1 ∨ n = 7 then some .home
  else if n = 2 then some .insert
  else if n = 3 then some .delete
  else if n = 4 ∨ n = 8 then some .endKey
  else if n = 5 then some .pageUp
  else if n = 6 then some .pageDown
  else if 11 ≤ n ∧ n ≤ 15 then some (.function (n - 10))
  else if 17 ≤ n ∧ n ≤ 21 then some (.function (n - 11))
  else if 23 ≤ n ∧ n ≤ 26 then some (.function (n - 12))
  else if 28 ≤ n ∧ n ≤ 29 then some (.function (n - 15))
  else if 31 ≤ n ∧ n ≤ 34 then some (.function (n - 17))
  else none

/-- What a key sends. -/
def sent : KeyPress → List Char
  | char c => [c]
  | escape => ['\x1b']
  | named .enter => ['\r']
  | named .tab => ['\t']
  | named .backspace => ['\x7f']
  | named .backTab => ['\x1b', '[', 'Z']
  | named .up => ['\x1b', '[', 'A']
  | named .down => ['\x1b', '[', 'B']
  | named .right => ['\x1b', '[', 'C']
  | named .left => ['\x1b', '[', 'D']
  | named .endKey => ['\x1b', '[', 'F']
  | named .home => ['\x1b', '[', 'H']
  | named .insert => ['\x1b', '[', '2', '~']
  | named .delete => ['\x1b', '[', '3', '~']
  | named .pageUp => ['\x1b', '[', '5', '~']
  | named .pageDown => ['\x1b', '[', '6', '~']
  | named (.function n) =>
    let number :=
      if n ≤ 5 then n + 10 else if n ≤ 10 then n + 11 else if n ≤ 14 then n + 12 else n + 17
    ['\x1b', '['] ++ Nat.toDigits 10 number ++ ['~']

theorem ofChar_of_printable {c : Char} (h : 32 ≤ c.toNat) (hd : c ≠ '\x7f') :
    ofChar c = char c := by
  have hne : ∀ d : Char, d.toNat < 32 → c ≠ d := fun d hlt he => by subst he; omega
  simp only [ofChar, hne '\r' (by decide), hne '\t' (by decide), hd, hne '\x1b' (by decide), if_false,
    show c.toNat ≠ 0 by omega, show ¬ c.toNat ≤ 26 by omega, show ¬ c.toNat < 32 by omega]

end KeyPress

end ChipEight
