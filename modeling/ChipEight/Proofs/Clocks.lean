import ChipEight.Proofs.Asides
import ChipEight.Proofs.Devices
import ChipEight.Proofs.Frames

/-! The machine has two clocks, that of its steps and that of its timers. Only three instructions look at
the timers or set them. Any other step is the same whatever the timers say and leaves them as they are, so
it changes places with a tick, and steps of that kind come to the same however they are interleaved with
ticks. -/
namespace ChipEight

def Instruction.usesTimers : Instruction → Bool
  | .getDelay _ | .setDelay _ | .setSound _ => true
  | _ => false

lemma Timers.lapse_tick (t : Timers) (n : Nat) : t.tick.lapse n = t.lapse (n + 1) := by
  have hsub (a : Nat) : a - 1 - n = a - (n + 1) := by omega
  simp only [lapse, tick, toNat_countDown, hsub]

def Machine.withTimers (m : Machine) (t : Timers) : Machine := { m with timers := t }

def Reply.withTimers (r : Reply) (t : Timers) : Reply :=
  { r with machine := r.machine.withTimers t }

namespace Machine

variable {m : Machine}

/-- The next step executes no instruction on the timers. -/
def LeavesTimers (m : Machine) : Prop := m.next?.any Instruction.usesTimers = false

instance : Decidable m.LeavesTimers := inferInstanceAs (Decidable (_ = _))

lemma LeavesTimers.usesTimers (h : m.LeavesTimers) {i : Instruction} (hi : m.next? = some i) :
    i.usesTimers = false := by
  rw [LeavesTimers, hi] at h
  exact h

lemma overlooks_of_not_usesTimers {i : Instruction} (h : i.usesTimers = false) (m : Machine)
    (t : Timers) : m.Overlooks { timers := fun _ => t } i := by
  cases i with
  | getDelay _ | setDelay _ | setSound _ => cases h
  | skip c => cases c <;> rfl
  | storeDecimal _ => exact (id_map _).symm
  | storeBlock _ => exact ⟨(id_map _).symm, rfl⟩
  | loadBlock _ => exact ⟨rfl, rfl⟩
  | combine _ _ _ | waitKey _ | loadGlyph _ | draw _ _ _ => rfl
  | _ => trivial

theorem step_withTimers (h : m.LeavesTimers) (t : Timers) :
    (m.withTimers t).step = m.step.withTimers t := by
  refine step_of_aside (aside_alter { timers := fun _ => t }) ?_ rfl ?_
  · exact fun x _ => pollKey_alter rfl x
  · intro i hi
    exact execute_alter (m := m.advance) (overlooks_of_not_usesTimers (h.usesTimers hi) _ t) m.pc

lemma timers_step (h : m.LeavesTimers) : m.step.machine.timers = m.timers := by
  have hcase := step_cases m
  generalize m.step = r at hcase
  cases hcase with
  | stuck _ | idle _ _ | resumed _ _ | failed _ => rfl
  | @executed w i done _ next _ he =>
    obtain ⟨htimers, -⟩ := execute_devices he
    have hi := h.usesTimers next
    rw [htimers]
    cases i with
    | setDelay _ | setSound _ => cases hi
    | _ => rfl

def StepsLeaveTimers (m : Machine) (n : Nat) : Prop := ∀ k < n, (m.afterSteps k).LeavesTimers

instance {n : Nat} : Decidable (m.StepsLeaveTimers n) := inferInstanceAs (Decidable (∀ k < n, _))

lemma StepsLeaveTimers.first {n : Nat} (h : m.StepsLeaveTimers (n + 1)) : m.LeavesTimers :=
  h 0 (Nat.succ_pos n)

lemma StepsLeaveTimers.rest {n : Nat} (h : m.StepsLeaveTimers (n + 1)) :
    m.step.machine.StepsLeaveTimers n := fun k hk => h (k + 1) (Nat.succ_lt_succ hk)

lemma afterSteps_withTimers {n : Nat} (h : m.StepsLeaveTimers n) (t : Timers) :
    (m.withTimers t).afterSteps n = (m.afterSteps n).withTimers t := by
  induction n generalizing m with
  | zero => rfl
  | succ n ih =>
    rw [afterSteps_succ, step_withTimers h.first]
    exact ih h.rest

lemma timers_afterSteps {n : Nat} (h : m.StepsLeaveTimers n) :
    (m.afterSteps n).timers = m.timers :=
  afterSteps_keeps Machine.timers fun k hk => timers_step (h k hk)

lemma StepsLeaveTimers.withTimers {n : Nat} (h : m.StepsLeaveTimers n) (t : Timers) :
    (m.withTimers t).StepsLeaveTimers n := by
  intro k hk
  have hbefore : m.StepsLeaveTimers k := fun j hj => h j (hj.trans hk)
  rw [afterSteps_withTimers hbefore]
  exact h k hk

/-- An order of `n` steps and `k` ticks. -/
inductive Interleaving : (n k : Nat) → List Operation → Prop
  | nil : Interleaving 0 0 []
  | step {n k : Nat} {ops : List Operation} (rest : Interleaving n k ops) :
      Interleaving (n + 1) k (.step :: ops)
  | tick {n k : Nat} {ops : List Operation} (rest : Interleaving n k ops) :
      Interleaving n (k + 1) (.tick :: ops)

def stepResults (m : Machine) : List Operation → List (Except Failure Unit)
  | [] => []
  | .step :: ops => m.step.result :: stepResults m.step.machine ops
  | op :: ops => stepResults (m.perform op).machine ops

def resultsOfSteps (m : Machine) (n : Nat) : List (Except Failure Unit) :=
  (m.replies (List.replicate n .step)).map (·.result)

lemma resultsOfSteps_withTimers {n : Nat} (h : m.StepsLeaveTimers n) (t : Timers) :
    (m.withTimers t).resultsOfSteps n = m.resultsOfSteps n := by
  induction n generalizing m with
  | zero => rfl
  | succ n ih =>
    have hfirst : (m.withTimers t).perform .step = m.step.withTimers t := step_withTimers h.first t
    have hrest := ih h.rest
    simp only [resultsOfSteps, List.replicate_succ, replies, List.map_cons, hfirst] at hrest ⊢
    exact congrArg (m.step.result :: ·) hrest

/-- Steps that leave the timers alone do not feel the ticks between them: they give the results and the
machine that they give without, and the ticks take effect on the timers. -/
theorem clocks_are_independent {n : Nat} (h : m.StepsLeaveTimers n) {k : Nat} {ops : List Operation}
    (hops : Interleaving n k ops) : m.stepResults ops = m.resultsOfSteps n ∧
      m.after ops = { m.afterSteps n with timers := (m.afterSteps n).timers.lapse k } := by
  induction hops generalizing m with
  | nil =>
    refine ⟨rfl, ?_⟩
    rw [Timers.lapse_zero]
    rfl
  | step _ ih =>
    obtain ⟨hresults, hafter⟩ := ih h.rest
    exact ⟨congrArg (m.step.result :: ·) hresults, hafter⟩
  | @tick n k ops _ ih =>
    obtain ⟨hresults, hafter⟩ := ih (h.withTimers m.timers.tick)
    rw [resultsOfSteps_withTimers h] at hresults
    refine ⟨hresults, ?_⟩
    rw [afterSteps_withTimers h] at hafter
    calc m.after (.tick :: ops) = (m.withTimers m.timers.tick).after ops := rfl
      _ = (m.afterSteps n).withTimers (m.timers.tick.lapse k) := hafter
      _ = (m.afterSteps n).withTimers ((m.afterSteps n).timers.lapse (k + 1)) := by
        rw [Timers.lapse_tick, timers_afterSteps h]

/-- Both timers are at five, and an unknown word, an addition and a return from nowhere come next. -/
def failingSoon : Machine := (start ⟨fun _ => 0, 0⟩ {}).after
  [.load [0x60, 0x05, 0xf0, 0x15, 0xf0, 0x18, 0xff, 0xff, 0x70, 0x01, 0x00, 0xee],
    .step, .step, .step]

/-- Six ticks among four steps, of which three fail. -/
theorem clocks_are_independent_failing_soon :
    failingSoon.StepsLeaveTimers 4 ∧
      Interleaving 4 6 [.tick, .step, .tick, .tick, .step, .step, .tick, .step, .tick, .tick] ∧
      failingSoon.stepResults
          [.tick, .step, .tick, .tick, .step, .step, .tick, .step, .tick, .tick] =
        [.error (.unknownOpcode 0xffff 0x206), .ok (), .error (.stackUnderflow 0x20a),
          .error (.stackUnderflow 0x20a)] ∧
      failingSoon.after [.tick, .step, .tick, .tick, .step, .step, .tick, .step, .tick, .tick] =
        { failingSoon.afterSteps 4 with timers := ⟨0, 0⟩ } := by
  have facts : failingSoon.StepsLeaveTimers 4 ∧
      failingSoon.resultsOfSteps 4 = [.error (.unknownOpcode 0xffff 0x206), .ok (),
        .error (.stackUnderflow 0x20a), .error (.stackUnderflow 0x20a)] ∧
      (failingSoon.afterSteps 4).timers.lapse 6 = ⟨0, 0⟩ := by
    decide +kernel
  obtain ⟨hleave, hresults, hlapse⟩ := facts
  have hops : Interleaving 4 6
      [.tick, .step, .tick, .tick, .step, .step, .tick, .step, .tick, .tick] :=
    .tick <| .step <| .tick <| .tick <| .step <| .step <| .tick <| .step <| .tick <| .tick .nil
  obtain ⟨hsame, hafter⟩ := clocks_are_independent hleave hops
  rw [hresults] at hsame
  rw [hlapse] at hafter
  exact ⟨hleave, hops, hsame, hafter⟩

end Machine

end ChipEight
