import ChipEight.Event
import ChipEight.Screen

/-! What a machine is run at: keys to read, a buzzer to switch and a screen to draw on. A host is its
six calls on a state of any type; a call may fail with a text and still change the state. `traced`
keeps the list of the calls made. -/
namespace ChipEight

structure Answer (σ α : Type) where
  result : Except String α
  state : σ
  log : List Event := []

/-- `peek` gives the keys pressed lately without taking them away, `flush` takes them away. -/
structure Host (σ : Type) where
  peek : σ → Answer σ (List UInt8)
  flush : σ → Answer σ Unit
  quitRequested : σ → Bool
  beep : σ → Answer σ Unit
  stop : σ → Answer σ Unit
  isBeeping : σ → Bool
  draw : Screen → σ → Answer σ Unit

inductive Call
  | peek | flush | beep | stop | draw
  deriving DecidableEq

structure Traced (σ : Type) where
  state : σ
  calls : Array (Call × Option String) := #[]

namespace Host

variable {σ : Type}

/-- Switches the buzzer only when it is not yet as it should be. -/
def follow (h : Host σ) (sounding : Bool) (s : σ) : Answer σ Unit :=
  match sounding, h.isBeeping s with
  | true, false => h.beep s
  | false, true => h.stop s
  | _, _ => { result := .ok (), state := s }

def traceCall (call : Call) (act : σ → Answer σ α) (t : Traced σ) : Answer (Traced σ) α :=
  let a := act t.state
  let failure := match a.result with
    | .ok _ => none
    | .error message => some message
  { result := a.result, state := ⟨a.state, t.calls.push (call, failure)⟩, log := a.log }

def traced (h : Host σ) : Host (Traced σ) where
  peek := traceCall .peek h.peek
  flush := traceCall .flush h.flush
  quitRequested t := h.quitRequested t.state
  beep := traceCall .beep h.beep
  stop := traceCall .stop h.stop
  isBeeping t := h.isBeeping t.state
  draw screen := traceCall .draw (h.draw screen)

theorem follow_of_isBeeping_eq (h : Host σ) {sounding : Bool} {s : σ}
    (hs : h.isBeeping s = sounding) : h.follow sounding s = { result := .ok (), state := s } := by
  cases sounding <;> simp [follow, hs]

theorem follow_true (h : Host σ) {s : σ} (hs : h.isBeeping s = false) :
    h.follow true s = h.beep s := by
  simp [follow, hs]

theorem follow_false (h : Host σ) {s : σ} (hs : h.isBeeping s = true) :
    h.follow false s = h.stop s := by
  simp [follow, hs]

end Host

end ChipEight
