import ChipEight.Proofs.Following

/-! The shortcut of a machine that is blocked on a key. Its frame takes one step, and a plain frame takes
them all; but a step of a blocked machine does nothing, so both come to the drawing with the same console.
A key that is down when the steps begin makes the frame a plain one, and the first step takes it. -/
namespace ChipEight

namespace Machine

variable {m : Machine}

lemma step_of_blocked (h : m.isAwaitingKey = true) : m.step = ⟨.ok (), m, []⟩ := by
  obtain ⟨⟨x, hs⟩, hreleased⟩ := m.isAwaitingKey_iff_blocked.1 h
  rw [step_of_awaiting hs, pollKey, m.keypad.firstPressed_eq_none_iff.2 hreleased]

lemma replies_of_blocked (h : m.isAwaitingKey = true) (n : Nat) :
    m.replies (List.replicate n .step) = List.replicate n ⟨.ok (), m, []⟩ := by
  induction n with
  | zero => rfl
  | succ n ih =>
    have hstep : m.perform .step = ⟨.ok (), m, []⟩ := step_of_blocked h
    rw [List.replicate_succ, replies, hstep, ih, List.replicate_succ]

lemma step_of_pressed {x : Register} {k : Key} (hs : m.status = .awaitingKey x)
    (hk : m.keypad.firstPressed = some k) : m.step =
      ⟨.ok (), { m.setRegister x (UInt8.ofNat k.val) with status := .running },
        [.resumed k x]⟩ := by
  rw [step_of_awaiting hs, pollKey, hk]

lemma isAwaitingKey_of_pressed {k : Key} (hk : m.keypad.firstPressed = some k) :
    m.isAwaitingKey = false := by
  rw [isAwaitingKey, hk]
  split <;> rfl

end Machine

namespace Console

variable {σ : Type}

/-- A frame that takes all its steps, whatever the machine waits for. -/
def plainFrame (h : Host σ) (s : FrameSettings) : Action σ Unit :=
  frameWith h s fun _ => s.cyclesPerFrame

/-- What is left of a frame when `n` steps are. -/
def stepsAndDrawing (h : Host σ) (n : Nat) : Action σ Unit := do
  runCycles n
  ask (h.draw (← get).machine.screen)

/-- How each of `n` actions in a row ends, those in trouble included, and with which console. -/
def inTurn (x : Action σ Unit) : Nat → Console σ → List (EStateM.Result Trouble (Console σ) Unit)
  | 0, _ => []
  | n + 1, c => x c :: inTurn x n (match x c with | .ok () d => d | .error _ d => d)

variable {h : Host σ} {s : FrameSettings} {c d : Console σ}

lemma runCycles_of_blocked (hb : c.machine.isAwaitingKey = true) (n : Nat) :
    runCycles n c = .ok () c := by
  induction n with
  | zero => rfl
  | succ n ih =>
    have hstep : c.machine.step = ⟨.ok (), c.machine, []⟩ := Machine.step_of_blocked hb
    have hstepped : c.stepped = c := by
      rw [stepped, hstep]
      rfl
    rw [runCycles_succ, hstep, hstepped]
    exact ih

lemma stepsAndDrawing_of_blocked (hb : c.machine.isAwaitingKey = true) (n k : Nat) :
    stepsAndDrawing h n c = stepsAndDrawing h k c := by
  rw [stepsAndDrawing, stepsAndDrawing, bind_of_ok (runCycles_of_blocked hb n),
    bind_of_ok (runCycles_of_blocked hb k)]

lemma afterFollow_eq (h : Host σ) (s : FrameSettings) (d : Console σ) :
    afterFollow h s d = stepsAndDrawing h (cyclesFor s d.machine) d := rfl

lemma plainFrame_eq_bind (h : Host σ) (s : FrameSettings) :
    plainFrame h s = toFollow h s >>= fun _ => stepsAndDrawing h s.cyclesPerFrame := by
  simp only [plainFrame, frameWith, toFollow, stepsAndDrawing, bind_assoc]
  rfl

theorem plainFrame_eq_frame (h : Host σ) (s : FrameSettings) : plainFrame h s = frame h s := by
  funext c
  rw [plainFrame_eq_bind, frame_eq_toFollow_bind]
  cases hc : toFollow h s c with
  | error t d => rw [bind_of_error hc, bind_of_error hc]
  | ok u d =>
    rw [bind_of_ok hc, bind_of_ok hc, afterFollow_eq]
    cases hb : d.machine.isAwaitingKey with
    | true => exact stepsAndDrawing_of_blocked hb _ _
    | false => rw [cyclesFor, hb, if_neg Bool.false_ne_true]

/-- A wait for register `x` that comes to the steps of its frame with a key down, `k` the lowest. -/
structure WaitEnds (h : Host σ) (s : FrameSettings) (c d : Console σ) (x : Register) (k : Key) :
    Prop where
  cycles : cyclesFor s d.machine = s.cyclesPerFrame
  step : d.machine.step =
    ⟨.ok (), { d.machine.setRegister x (UInt8.ofNat k.val) with status := .running },
      [.resumed k x]⟩
  rest : ∀ n, s.cyclesPerFrame = n + 1 → frame h s c = stepsAndDrawing h n d.stepped

lemma waitEnds_of_pressed {x : Register} {k : Key} (hd : toFollow h s c = .ok () d)
    (hs : d.machine.status = .awaitingKey x) (hk : d.machine.keypad.firstPressed = some k) :
    WaitEnds h s c d x k := by
  have hcycles : cyclesFor s d.machine = s.cyclesPerFrame := by
    rw [cyclesFor, Machine.isAwaitingKey_of_pressed hk, if_neg Bool.false_ne_true]
  have hstep := Machine.step_of_pressed hs hk
  refine ⟨hcycles, hstep, ?_⟩
  intro n hn
  have hrun : runCycles (n + 1) d = runCycles n d.stepped := by
    rw [runCycles_succ, hstep]
  rw [frame_of_toFollow hd, afterFollow_eq, hcycles, hn, stepsAndDrawing, stepsAndDrawing]
  change EStateM.bind _ _ d = EStateM.bind _ _ d.stepped
  simp only [EStateM.bind, hrun]

/-- Frames with the shortcut end like plain frames, with the same console and after the same calls, one
after the other. A machine that is blocked can take any number of steps and is left as it is, while a wait
with a key down gets all the steps of its frame and is over with the first. -/
theorem throttling_loses_nothing (h : Host σ) (s : FrameSettings) :
    (∀ n c, inTurn (plainFrame h.traced s) n c = inTurn (frame h.traced s) n c) ∧
      (∀ m : Machine, m.isAwaitingKey = true → ∀ n,
        m.replies (List.replicate n .step) = List.replicate n ⟨.ok (), m, []⟩) ∧
      ∀ c d x k, toFollow h s c = .ok () d → d.machine.status = .awaitingKey x →
        d.machine.keypad.firstPressed = some k → WaitEnds h s c d x k := by
  refine ⟨?_, ?_, ?_⟩
  · intro n c
    rw [plainFrame_eq_frame]
  · intro m hm n
    exact Machine.replies_of_blocked hm n
  · intro c d x k hd hs hk
    exact waitEnds_of_pressed hd hs hk

/-- A wait for register 0 that the first frame begins and key 5 ends in the third. -/
def waiting : Console Script :=
  start ((Machine.start ⟨fun _ => 0, 0⟩ {}).after [.load [0xf0, 0x0a, 0x71, 0x01]])
    { batches := [[], [], [5]] }

def pairsOfSteps : FrameSettings := { cyclesPerFrame := 2 }

/-- What can be told of a console that an action comes to is told by running it. -/
instance {x : Action σ Unit} {c : Console σ} {P : Console σ → Prop} [DecidablePred P] :
    Decidable (∃ d, x c = .ok () d ∧ P d) :=
  match hx : x c with
  | .ok () d => decidable_of_iff (P d)
      ⟨fun hd => ⟨d, rfl, hd⟩, fun ⟨_, he, hd⟩ => by cases he; exact hd⟩
  | .error _ _ => isFalse fun ⟨_, he, _⟩ => nomatch he

/-- The second frame is blocked. In the third, key 5 goes to register 0 and one more instruction is
executed. -/
theorem throttling_loses_nothing_key_five :
    inTurn (plainFrame Script.host.traced pairsOfSteps) 3 waiting.traced =
        inTurn (frame Script.host.traced pairsOfSteps) 3 waiting.traced ∧
      (∀ n, (afterFrames Script.host pairsOfSteps waiting 1).machine.replies
          (List.replicate n .step) =
        List.replicate n ⟨.ok (), (afterFrames Script.host pairsOfSteps waiting 1).machine, []⟩) ∧
      ∃ d, WaitEnds Script.host pairsOfSteps (afterFrames Script.host pairsOfSteps waiting 2) d 0 5 ∧
        (d.machine.afterSteps 2).v.get 0 = 5 ∧ (d.machine.afterSteps 2).v.get 1 = 1 := by
  have facts : (afterFrames Script.host pairsOfSteps waiting 1).machine.isAwaitingKey = true ∧
      ∃ d, toFollow Script.host pairsOfSteps (afterFrames Script.host pairsOfSteps waiting 2) =
          .ok () d ∧
        d.machine.status = .awaitingKey 0 ∧ d.machine.keypad.firstPressed = some 5 ∧
        (d.machine.afterSteps 2).v.get 0 = 5 ∧ (d.machine.afterSteps 2).v.get 1 = 1 := by
    decide +kernel
  obtain ⟨hblocked, d, hd, hs, hk, hzero, hone⟩ := facts
  obtain ⟨hframes, hsteps, hwait⟩ := throttling_loses_nothing Script.host pairsOfSteps
  exact ⟨hframes 3 waiting.traced, hsteps _ hblocked, d, hwait _ d 0 5 hd hs hk, hzero, hone⟩

end Console

end ChipEight
