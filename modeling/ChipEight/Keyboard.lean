import ChipEight.Host
import ChipEight.InputStream
import ChipEight.Quoted

/-! A keyboard whose left-hand side stands for the pad. Keys that have been seen pile up until they are
taken away; Escape asks to quit, for good; every other key is only told of. -/
namespace ChipEight

/-- The characters that stand for the keys 0 to 15. -/
def keymap : List Char :=
  ['x', '1', '2', '3', 'q', 'w', 'e', 'a', 's', 'd', 'z', 'c', '4', 'r', 'f', 'v']

/-- Upper and lower case of the letters A to Z are one key. -/
def padKey? (c : Char) : Option UInt8 := (keymap.idxOf? c.toLower).map UInt8.ofNat

structure Keyboard where
  input : InputStream := {}
  keys : List UInt8 := []
  quit : Bool := false
  deriving DecidableEq

namespace Keyboard

def type (k : Keyboard) (typed : List UInt8) : Keyboard := { k with input := k.input.type typed }

def presses (k : Keyboard) : List KeyPress := k.input.look.1

/-- A character that stands for a key of the pad. -/
def keyOf : KeyPress → Option UInt8
  | .char c => padKey? c
  | _ => none

def remark : KeyPress → Option Event
  | .char c => if (padKey? c).isSome then none else some (.unmappedKey (quoteChar c))
  | .escape => none
  | .named key => some (.ignoredKey key.name)

/-- Takes what is seen at one look. -/
def take (k : Keyboard) : Keyboard where
  input := k.input.look.2
  keys := k.keys ++ k.presses.filterMap keyOf
  quit := k.quit || k.presses.contains .escape

def remarks (k : Keyboard) : List Event := k.presses.filterMap remark

def peek (k : Keyboard) : Answer Keyboard (List UInt8) where
  result := .ok k.take.keys
  state := k.take
  log := k.remarks

/-- What is seen just before goes as well. -/
def flush (k : Keyboard) : Answer Keyboard Unit where
  result := .ok ()
  state := { k.take with keys := [] }
  log := k.remarks

theorem length_keymap : keymap.length = 16 := rfl

theorem padKey?_keymap : keymap.map padKey? = (List.range 16).map fun n => some (UInt8.ofNat n) := by
  decide

theorem keyOf_eq_some_iff (press : KeyPress) (key : UInt8) :
    keyOf press = some key ↔ ∃ c, press = .char c ∧ padKey? c = some key := by
  cases press <;> simp [keyOf]

/-- A press stands for a key, asks to quit or is told of. -/
theorem remark_eq_none_iff (press : KeyPress) :
    remark press = none ↔ press = .escape ∨ (keyOf press).isSome := by
  cases press <;> simp [remark, keyOf, Option.isSome_iff_ne_none]

theorem quit_take_of_quit {k : Keyboard} (h : k.quit = true) : k.take.quit = true := by
  simp [take, h]

end Keyboard

end ChipEight
