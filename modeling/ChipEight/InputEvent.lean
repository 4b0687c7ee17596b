import ChipEight.KeyPress
import ChipEight.Numeral
import ChipEight.Pieces
import ChipEight.Utf8

/-! What a terminal sends, byte by byte. A character comes as its bytes in UTF-8, and a sequence starts
with the byte of an escape, so an escape stands for its own key only where nothing follows it. Bytes that
cannot be read are dropped up to the one that shows it, and reading goes on behind it. -/
namespace ChipEight

/-- A terminal tells of keys, of the mouse and of the place of its cursor. -/
inductive InputEvent
  | press (key : KeyPress)
  | mouse
  | cursor
  deriving DecidableEq

/-- What bytes come to: an event, nothing that can be read, or the start of an event. -/
inductive Reading
  | event (e : InputEvent)
  | refused
  | unfinished
  deriving DecidableEq

namespace Reading

def ofKey (key : Option NamedKey) : Reading :=
  key.elim .refused fun k => .event (.press (.named k))

/-- The buttons of a mouse are six, numbered by the two low bits and the two high ones. -/
def ofButton (state : Nat) : Reading :=
  if state % 4 + state / 64 * 4 < 6 then .event .mouse else .refused

/-- The byte of a button may be moved up to be a character that can be seen. -/
def ofShiftedButton (state : Nat) : Reading :=
  if 32 ≤ state then ofButton (state - 32) else .refused

end Reading

namespace InputEvent

def escapeByte : UInt8 := 0x1b

def readChar (bytes : List UInt8) : Reading :=
  match Utf8.char? bytes with
  | some c => .event (.press (.ofChar c))
  | none => if Utf8.isUnfinished bytes then .unfinished else .refused

/-- Numbers with a semicolon between two of them, each below its bound. What follows the last of them
does not matter. -/
def readNumbers? : List Nat → List (List Char) → Option (List Nat)
  | [], _ => some []
  | _ :: _, [] => none
  | bound :: bounds, piece :: pieces => do
    let n ← readNumeral? bound piece
    let numbers ← readNumbers? bounds pieces
    return n :: numbers

def numbers? (bounds : List Nat) (parameters : List Char) : Option (List Nat) :=
  readNumbers? bounds (piecesBetween ';' parameters)

/-- A button and a place. -/
def readMouse (ofState : Nat → Reading) (parameters : List Char) : Reading :=
  match numbers? [256, 65536, 65536] parameters with
  | some (state :: _) => ofState state
  | _ => .refused

def readCursor (parameters : List Char) : Reading :=
  if (numbers? [65536, 65536] parameters).isSome then .event .cursor else .refused

/-- The number of a key. -/
def readNumbered (parameters : List Char) : Reading :=
  match numbers? [256] parameters with
  | some (n :: _) => .ofKey (KeyPress.ofNumber? n)
  | _ => .refused

def isFinal (c : Char) : Bool := 64 ≤ c.toNat && c.toNat ≤ 126

/-- A sequence with parameters ends in a letter or another sign that says what they mean. -/
def readParameters (parameters : List Char) (last : Char) : Reading :=
  if !isFinal last then .unfinished
  else if last = '~' then readNumbered parameters
  else if last = 'M' then readMouse .ofShiftedButton parameters
  else if last = 'R' then readCursor parameters
  else .ofKey ((KeyPress.ofLetter? last).or (KeyPress.functionOf? 'P' last 4))

/-- What follows an escape and a bracket. -/
def readControl : List Char → Reading
  | [] => .unfinished
  | ['['] => .unfinished
  | '[' :: c :: _ => .ofKey (KeyPress.functionOf? 'A' c 5)
  | 'Z' :: _ => .event (.press (.named .backTab))
  | 'M' :: button :: _ :: _ :: _ => .ofShiftedButton button.toNat
  | 'M' :: _ => .unfinished
  | '<' :: report =>
    if report.getLast? = some 'm' ∨ report.getLast? = some 'M' then readMouse .ofButton report.dropLast
    else .unfinished
  | c :: rest =>
    if c.isDigit then
      match rest.getLast? with
      | none => .unfinished
      | some last => readParameters (c :: rest.dropLast) last
    else .ofKey (KeyPress.ofLetter? c)

/-- Reads the bytes of one event, with or without more of them behind. -/
def read (more : Bool) : List UInt8 → Reading
  | [] => .unfinished
  | first :: rest =>
    if first ≠ escapeByte then readChar (first :: rest)
    else
      match rest.map Char.ofUInt8 with
      | [] => if more then .unfinished else .event (.press .escape)
      | ['O'] => .unfinished
      | 'O' :: c :: _ => .ofKey (KeyPress.functionOf? 'P' c 4)
      | '[' :: control => readControl control
      | '\x1b' :: _ => .event (.press .escape)
      | _ => readChar rest

/-- The events in what has been sent, after the start of an event, and the start of another. -/
def readAll (more : Bool) (start : List UInt8) : List UInt8 → List InputEvent × List UInt8
  | [] => ([], start)
  | b :: rest =>
    let pending := start ++ [b]
    match read (more || !rest.isEmpty) pending with
    | .event e =>
      let (events, unfinished) := readAll more [] rest
      (e :: events, unfinished)
    | .refused => readAll more [] rest
    | .unfinished => readAll more pending rest

/-- Bytes may be cut in two anywhere, as long as the first part is known to have more behind it. -/
theorem readAll_append (more : Bool) (start a : List UInt8) {b : List UInt8} (h : b ≠ []) :
    readAll more start (a ++ b) =
      ((readAll true start a).1 ++ (readAll more (readAll true start a).2 b).1,
        (readAll more (readAll true start a).2 b).2) := by
  induction a generalizing start with
  | nil => rfl
  | cons c a ih =>
    have hne : (a ++ b).isEmpty = false := by simp [h]
    simp only [List.cons_append, readAll, hne, Bool.not_false, Bool.or_true, Bool.true_or]
    split <;> simp [ih]

theorem head_utf8EncodeChar_ne {c : Char} (hc : c ≠ '\x1b') {first : UInt8} {rest : List UInt8}
    (h : String.utf8EncodeChar c = first :: rest) : first ≠ escapeByte := by
  rintro rfl
  obtain ⟨_, _, he, hw, _⟩ := Utf8.exists_utf8EncodeChar c
  rw [h] at he
  cases he
  have hr : rest = [] := by
    have : some 1 = some (rest.length + 1) := hw
    simpa using this
  exact hc (Utf8.utf8EncodeChar_injective (by rw [h, hr]; rfl))

theorem read_utf8EncodeChar {c : Char} (hc : c ≠ '\x1b') (more : Bool) :
    read more (String.utf8EncodeChar c) = .event (.press (.ofChar c)) := by
  have hr : readChar (String.utf8EncodeChar c) = .event (.press (.ofChar c)) := by
    simp [readChar, Utf8.char?_utf8EncodeChar]
  obtain ⟨first, rest, h, _⟩ := Utf8.exists_utf8EncodeChar c
  rw [h] at hr ⊢
  rw [read, if_pos (head_utf8EncodeChar_ne hc h), hr]

theorem read_take {c : Char} (hc : c ≠ '\x1b') (more : Bool) {n : Nat} (h : n < c.utf8Size) :
    read more ((String.utf8EncodeChar c).take n) = .unfinished := by
  have hr : readChar ((String.utf8EncodeChar c).take n) = .unfinished := by
    simp [readChar, Utf8.char?_take c h, Utf8.isUnfinished_take c h]
  cases n with
  | zero => rfl
  | succ n =>
    cases he : String.utf8EncodeChar c with
    | nil => rfl
    | cons first rest =>
      rw [he] at hr
      rw [List.take_succ_cons] at hr ⊢
      rw [read, if_pos (head_utf8EncodeChar_ne hc he), hr]

theorem readAll_utf8EncodeChar {c : Char} (hc : c ≠ '\x1b') (more : Bool) (rest : List UInt8) :
    readAll more [] (String.utf8EncodeChar c ++ rest) =
      (.press (.ofChar c) :: (readAll more [] rest).1, (readAll more [] rest).2) := by
  suffices h : ∀ k n, n + k + 1 = c.utf8Size →
      readAll more ((String.utf8EncodeChar c).take n) ((String.utf8EncodeChar c).drop n ++ rest) =
        (.press (.ofChar c) :: (readAll more [] rest).1, (readAll more [] rest).2) by
    have := c.utf8Size_pos
    simpa using h (c.utf8Size - 1) 0 (by omega)
  intro k
  induction k with
  | zero =>
    intro n hn
    have hlt : n < (String.utf8EncodeChar c).length := by simp; omega
    rw [List.drop_eq_getElem_cons hlt, List.drop_of_length_le (by simp; omega), List.cons_append,
      List.nil_append, readAll, List.take_append_getElem hlt, List.take_of_length_le (by simp; omega),
      read_utf8EncodeChar hc]
  | succ k ih =>
    intro n hn
    have hlt : n < (String.utf8EncodeChar c).length := by simp; omega
    rw [List.drop_eq_getElem_cons hlt, List.cons_append, readAll, List.take_append_getElem hlt,
      read_take hc _ (by omega), ih (n + 1) (by omega)]

/-- Characters other than an escape are a press each. -/
theorem readAll_of_no_escape {cs : List Char} (h : '\x1b' ∉ cs) (more : Bool) :
    readAll more [] (Utf8.encode cs) = (cs.map fun c => .press (.ofChar c), []) := by
  induction cs with
  | nil => rfl
  | cons c cs ih =>
    simp only [List.mem_cons, not_or] at h
    have he : Utf8.encode (c :: cs) = String.utf8EncodeChar c ++ Utf8.encode cs := by
      simp [Utf8.encode]
    rw [he, readAll_utf8EncodeChar (Ne.symm h.1), ih h.2]
    rfl

/-- Where a key has a name, what it sends is read as that key. -/
theorem readAll_sent_named {key : NamedKey} (h : ∀ n, key ≠ .function n) :
    readAll false [] (Utf8.encode (KeyPress.sent (.named key))) = ([.press (.named key)], []) := by
  cases key with
  | function n => exact absurd rfl (h n)
  | enter | tab | backspace => exact readAll_of_no_escape (by decide) false
  | _ => rfl

theorem readAll_sent_function :
    ∀ n < 18, 0 < n → readAll false [] (Utf8.encode (KeyPress.sent (.named (.function n)))) =
      ([.press (.named (.function n))], []) := by
  decide

end InputEvent

end ChipEight
