import ChipEight.Execution
import ChipEight.Host

/-! A machine at a host, and one frame of a sixtieth of a second. A host reports key presses and never
releases, so a press is held for a number of frames; a counter for each key says how many are left. -/
namespace ChipEight

structure FrameSettings where
  cyclesPerFrame : Nat := 12
  keyHoldFrames : Nat := 6
  deriving DecidableEq

/-- What can end a frame early. -/
inductive Trouble
  | machine (failure : Failure)
  | host (message : String)
  deriving DecidableEq

structure Console (σ : Type) where
  machine : Machine
  holds : Vector Nat 16
  host : σ
  log : Array Event := #[]

/-- What happens at a console; trouble leaves it as it then is. -/
abbrev Console.Action (σ : Type) := EStateM Trouble (Console σ)

namespace Console

variable {σ α : Type}

def start (machine : Machine) (host : σ) : Console σ where
  machine := machine
  holds := Vector.replicate 16 0
  host := host

def ask (call : σ → Answer σ α) : Action σ α := fun c =>
  let a := call c.host
  let c := { c with host := a.state, log := c.log ++ a.log }
  match a.result with
  | .ok value => .ok value c
  | .error message => .error (.host message) c

def operate (act : Machine → Reply) : Action σ (Except Failure Unit) := fun c =>
  let reply := act c.machine
  .ok reply.result { c with machine := reply.machine, log := c.log ++ reply.log }

/-- A press starts the hold of its key anew; a number that is no key is only told of. -/
def notePress (hold : Nat) (c : Console σ) (key : UInt8) : Console σ :=
  if h : key.toNat < 16 then { c with holds := c.holds.set key.toNat hold }
  else { c with log := c.log.push (.strayKey key) }

def keypadOfHolds (holds : Vector Nat 16) : Keypad := ⟨holds.map fun n => decide (0 < n)⟩

/-- Every key with frames left is down for this frame, and then has one left less. -/
def pressHeld (c : Console σ) : Console σ :=
  { c with
    machine := { c.machine with keypad := keypadOfHolds c.holds }
    holds := c.holds.map (· - 1) }

def updateKeys (h : Host σ) (s : FrameSettings) : Action σ Unit := do
  let keys ← ask h.peek
  modify fun c => keys.foldl (notePress s.keyHoldFrames) c
  ask h.flush
  modify pressHeld

/-- A failure that is not fatal counts as a step like any other. -/
def runCycles : Nat → Action σ Unit
  | 0 => pure ()
  | n + 1 => do
    match ← operate Machine.step with
    | .ok () => runCycles n
    | .error f => if f.isFatal then throw (.machine f) else runCycles n

/-- A machine that is blocked on a key only polls once a frame. -/
def cyclesFor (s : FrameSettings) (m : Machine) : Nat :=
  if m.isAwaitingKey then 1 else s.cyclesPerFrame

/-- One frame with as many steps as `cycles` says of the machine before them. -/
def frameWith (h : Host σ) (s : FrameSettings) (cycles : Machine → Nat) : Action σ Unit := do
  updateKeys h s
  modify fun c => { c with machine := c.machine.tick }
  ask (h.follow (← get).machine.isSounding)
  runCycles (cycles (← get).machine)
  ask (h.draw (← get).machine.screen)

def frame (h : Host σ) (s : FrameSettings) : Action σ Unit := frameWith h s (cyclesFor s)

theorem ask_of_ok {call : σ → Answer σ α} {c : Console σ} {value : α}
    (h : (call c.host).result = .ok value) : ask call c =
      .ok value { c with host := (call c.host).state, log := c.log ++ (call c.host).log } := by
  simp [ask, h]

theorem ask_of_error {call : σ → Answer σ α} {c : Console σ} {message : String}
    (h : (call c.host).result = .error message) : ask call c = .error (.host message)
      { c with host := (call c.host).state, log := c.log ++ (call c.host).log } := by
  simp [ask, h]

/-- The console after one step of its machine. -/
def stepped (c : Console σ) : Console σ :=
  { c with machine := c.machine.step.machine, log := c.log ++ c.machine.step.log }

theorem runCycles_succ (n : Nat) (c : Console σ) : runCycles (n + 1) c =
    match c.machine.step.result with
    | .ok () => runCycles n c.stepped
    | .error f => if f.isFatal then .error (.machine f) c.stepped else runCycles n c.stepped := by
  simp only [runCycles, bind, EStateM.bind, operate, stepped]
  split <;> rename_i h <;> simp only [h]
  split <;> rfl

theorem isPressed_keypadOfHolds (holds : Vector Nat 16) (k : Key) :
    (keypadOfHolds holds).isPressed k.val = decide (0 < holds.get k) := by
  simp [keypadOfHolds, Keypad.isPressed, Vector.get]

theorem machine_notePress (hold : Nat) (c : Console σ) (key : UInt8) :
    (notePress hold c key).machine = c.machine := by
  unfold notePress; split <;> rfl

theorem host_notePress (hold : Nat) (c : Console σ) (key : UInt8) :
    (notePress hold c key).host = c.host := by
  unfold notePress; split <;> rfl

theorem machine_foldl_notePress (hold : Nat) (keys : List UInt8) (c : Console σ) :
    (keys.foldl (notePress hold) c).machine = c.machine := by
  induction keys generalizing c with
  | nil => rfl
  | cons k keys ih => rw [List.foldl_cons, ih, machine_notePress]

theorem host_foldl_notePress (hold : Nat) (keys : List UInt8) (c : Console σ) :
    (keys.foldl (notePress hold) c).host = c.host := by
  induction keys generalizing c with
  | nil => rfl
  | cons k keys ih => rw [List.foldl_cons, ih, host_notePress]

end Console

end ChipEight
