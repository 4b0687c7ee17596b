import ChipEight.InputEvent

/-! What is typed at a terminal on its way to a reader. A look at the stream takes what has come since
the look before, a portion at a time, and goes on behind a portion only if there was no event in it. What
is left over waits until more is typed. -/
namespace ChipEight

/-- `fresh` tells that something has been typed since bytes were last read. `unfinished` is the start of
an event, and `events` are those read but not yet seen. -/
structure InputStream where
  waiting : List UInt8 := []
  fresh : Bool := false
  unfinished : List UInt8 := []
  events : List InputEvent := []
  deriving DecidableEq

namespace InputStream

def type (s : InputStream) (bytes : List UInt8) : InputStream :=
  { s with waiting := s.waiting ++ bytes, fresh := s.fresh || !bytes.isEmpty }

/-- How many bytes are read at once. -/
def portion : Nat := 1204

/-- More may follow a portion that is full. -/
def readPortion (s : InputStream) : InputStream :=
  let bytes := s.waiting.take portion
  let (events, unfinished) := InputEvent.readAll (bytes.length == portion) s.unfinished bytes
  { waiting := s.waiting.drop portion, unfinished := unfinished, events := events }

theorem length_waiting_readPortion {s : InputStream} (h : s.waiting ≠ []) :
    s.readPortion.waiting.length < s.waiting.length := by
  have := List.length_pos_iff.2 h
  simp only [readPortion, List.length_drop, portion]
  omega

/-- Reads up to the first portion with an event in it. -/
def receive (s : InputStream) : InputStream :=
  if h : s.waiting = [] then { unfinished := s.unfinished }
  else
    have := length_waiting_readPortion h
    let read := s.readPortion
    if read.events.isEmpty then read.receive else read
  termination_by s.waiting.length

/-- Nothing is read while a report of the cursor stands before it. -/
def refill (s : InputStream) : InputStream :=
  if s.fresh ∧ .cursor ∉ s.events then
    let received := s.receive
    { received with events := s.events ++ received.events }
  else s

def pressOf? : InputEvent → Option KeyPress
  | .press key => some key
  | _ => none

def beforeReport (events : List InputEvent) : List InputEvent := events.takeWhile (· ≠ .cursor)

def afterReport (events : List InputEvent) : List InputEvent := (events.dropWhile (· ≠ .cursor)).tail

/-- The presses up to a report of the cursor, which ends the look and goes with it. -/
def look (s : InputStream) : List KeyPress × InputStream :=
  let s := s.refill
  ((beforeReport s.events).filterMap pressOf?, { s with events := afterReport s.events })

theorem look_of_nothing_new {s : InputStream} (hf : s.fresh = false) (he : s.events = []) :
    s.look = ([], s) := by
  cases s
  simp_all [look, refill, beforeReport, afterReport]

theorem beforeReport_presses (keys : List KeyPress) :
    beforeReport (keys.map .press) = keys.map .press := by
  induction keys <;> simp_all [beforeReport]

theorem afterReport_presses (keys : List KeyPress) : afterReport (keys.map .press) = [] := by
  induction keys <;> simp_all [afterReport]

theorem filterMap_pressOf? (keys : List KeyPress) : (keys.map .press).filterMap pressOf? = keys := by
  induction keys <;> simp_all [pressOf?]

theorem look_of_presses {s : InputStream} {keys : List KeyPress}
    (h : s.refill.events = keys.map .press) : s.look = (keys, { s.refill with events := [] }) := by
  simp only [look, h, beforeReport_presses, afterReport_presses, filterMap_pressOf?]

/-- A text without an escape that fits into a portion is seen at one look. -/
theorem look_type_encode {cs : List Char} (he : '\x1b' ∉ cs)
    (hl : (Utf8.encode cs).length ≤ portion) :
    (({} : InputStream).type (Utf8.encode cs)).look = (cs.map KeyPress.ofChar, {}) := by
  by_cases hc : cs = []
  · subst hc; rfl
  · have hb : Utf8.encode cs ≠ [] := by
      obtain ⟨c, cs, rfl⟩ := List.exists_cons_of_ne_nil hc
      obtain ⟨first, rest, h, _⟩ := Utf8.exists_utf8EncodeChar c
      simp [Utf8.encode, h]
    have hr : (({} : InputStream).type (Utf8.encode cs)).receive =
        { events := (cs.map KeyPress.ofChar).map .press } := by
      rw [receive, dif_neg (by simpa [type] using hb)]
      simp [readPortion, type, List.take_of_length_le hl, List.drop_of_length_le hl,
        InputEvent.readAll_of_no_escape he, hc]
    have hf : (({} : InputStream).type (Utf8.encode cs)).refill =
        { events := (cs.map KeyPress.ofChar).map .press } := by
      rw [refill, if_pos (by simp [type, hb]), hr]
      rfl
    rw [look_of_presses (by rw [hf]), hf]

end InputStream

end ChipEight
