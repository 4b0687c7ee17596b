import ChipEight.Host

/-! A host that follows a script: key presses come in batches, one at each look, chosen calls fail
once with a given text, and quitting is asked for after a number of drawn frames. The screen and the
buzzer only keep count. -/
namespace ChipEight

structure Script where
  batches : List (List UInt8) := []
  pressed : List UInt8 := []
  quitAt : Option Nat := none
  failures : List (Call × String) := []
  drawn : Nat := 0
  lit : Nat := 0
  beeps : Nat := 0
  beeping : Bool := false
  deriving DecidableEq

namespace Script

/-- The first text kept for a call, and what is kept after it has been used. -/
def takeFailure (call : Call) : List (Call × String) → Option (String × List (Call × String))
  | [] => none
  | (c, message) :: rest =>
    if c = call then some (message, rest)
    else (takeFailure call rest).map fun (m, r) => (m, (c, message) :: r)

/-- A call that is to fail does nothing else. -/
def perform (call : Call) (act : Script → α × Script) (s : Script) : Answer Script α :=
  match takeFailure call s.failures with
  | some (message, rest) => { result := .error message, state := { s with failures := rest } }
  | none =>
    let (value, s) := act s
    { result := .ok value, state := s }

def readBatch (s : Script) : List UInt8 × Script :=
  match s.batches with
  | [] => (s.pressed, s)
  | batch :: rest =>
    let pressed := s.pressed ++ batch
    (pressed, { s with batches := rest, pressed := pressed })

def host : Host Script where
  peek := perform .peek readBatch
  flush := perform .flush fun s => ((), { s with pressed := [] })
  quitRequested s := s.quitAt.any (· ≤ s.drawn)
  beep := perform .beep fun s => ((), { s with beeping := true, beeps := s.beeps + 1 })
  stop := perform .stop fun s => ((), { s with beeping := false })
  isBeeping s := s.beeping
  draw screen := perform .draw fun s => ((), { s with drawn := s.drawn + 1, lit := screen.litCount })

end Script

end ChipEight
