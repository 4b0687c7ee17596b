import ChipEight.Proofs.Hosting
import ChipEight.Proofs.StepCases
import Mathlib.Data.List.Induction

/-! A fault lasts until the next reset. While it lasts every step answers with the same failure and
does nothing, the processor stays as the fault left it, and memory takes up no more than the programs
that are loaded. Nothing but a step brings a fault about. -/
namespace ChipEight.Machine

variable {m : Machine} {f : Failure}

/-- What holds of a machine that stopped with `f` as `m` when `ops` have been done to it. -/
structure Stuck (m : Machine) (f : Failure) (ops : List Operation) : Prop where
  faulted : (m.after ops).status = .faulted f
  step : (m.after ops).step = ⟨.error f, m.after ops, []⟩
  processor : SameProcessor m (m.after ops)
  memory : (m.after ops).memory = m.memory.withPrograms (m.loadedPrograms ops)

lemma loaded?_step (m : Machine) : m.loaded? .step = none := by
  unfold loaded?
  split <;> rfl

lemma perform_of_faulted (hm : m.Sound) (hs : m.status = .faulted f) {op : Operation}
    (hreset : op ≠ .reset) : SameProcessor m (m.perform op).machine ∧
      (m.perform op).machine.memory = m.memory.withPrograms (m.loaded? op).toList := by
  by_cases hstep : op = .step
  · subst hstep
    rw [loaded?_step, perform, step_of_faulted hs]
    exact ⟨.refl m, rfl⟩
  · exact ⟨sameProcessor_perform hm hstep hreset, memory_perform hm hstep hreset⟩

theorem stuck_after (hm : m.Sound) (hs : m.status = .faulted f) (ops : List Operation)
    (hops : .reset ∉ ops) : Stuck m f ops := by
  induction ops generalizing m with
  | nil => exact ⟨hs, step_of_faulted hs, .refl m, rfl⟩
  | cons op ops ih =>
    rw [List.mem_cons, not_or] at hops
    obtain ⟨hop, hrest⟩ := hops
    obtain ⟨hsame, hmemory⟩ := perform_of_faulted hm hs (Ne.symm hop)
    have h := ih (hm.perform op) (hsame.status.trans hs) hrest
    refine ⟨h.faulted, h.step, hsame.trans h.processor, ?_⟩
    calc (m.after (op :: ops)).memory
        = (m.perform op).machine.memory.withPrograms
            ((m.perform op).machine.loadedPrograms ops) := h.memory
      _ = m.memory.withPrograms ((m.loaded? op).toList ++
            (m.perform op).machine.loadedPrograms ops) := by
          rw [hmemory, Memory.withPrograms_append]

/-- The fault of the machine `m` after `ops` began in a step with nothing but host operations and
further steps behind it. -/
def FaultedIn (m : Machine) (f : Failure) (ops : List Operation) : Prop :=
  ∃ before later, ops = before ++ .step :: later ∧ .reset ∉ later ∧
    (m.after before).isFaulted = false ∧ (m.after before).step.result = .error f ∧
    f.isFatal = true

lemma FaultedIn.snoc {ops : List Operation} (h : FaultedIn m f ops) {op : Operation}
    (hop : op ≠ .reset) : FaultedIn m f (ops ++ [op]) := by
  obtain ⟨before, later, rfl, hlater, hfirst⟩ := h
  refine ⟨before, later ++ [op], by simp, ?_, hfirst⟩
  simpa [hlater] using Ne.symm hop

lemma isFaulted_eq_false_or (m : Machine) : m.isFaulted = false ∨ ∃ f, m.status = .faulted f := by
  unfold isFaulted
  cases m.status <;> simp

theorem faultedIn_of_status (hm : m.Sound) (hr : m.status = .running) (ops : List Operation)
    (h : (m.after ops).status = .faulted f) : FaultedIn m f ops := by
  induction ops using List.reverseRecOn generalizing f with
  | nil => exact nomatch hr.symm.trans h
  | append_singleton ops op ih =>
    have hsound := hm.after ops
    have hfatal := (hm.after (ops ++ [op])).fatal f h
    rw [after_snoc] at h
    by_cases hreset : op = .reset
    · subst hreset
      cases h
    · by_cases hstep : op = .step
      · subst hstep
        have hresult : (m.after ops).step.result = .error f := result_of_status_step h
        obtain hfirst | ⟨g, hg⟩ := isFaulted_eq_false_or (m.after ops)
        · exact ⟨ops, [], rfl, List.not_mem_nil, hfirst, hresult, hfatal⟩
        · -- the fault is an older one, which the last step only repeated
          rw [step_of_faulted hg] at hresult
          cases hresult
          exact (ih hg).snoc hreset
      · rw [(sameProcessor_perform hsound hstep hreset).status] at h
        exact (ih h).snoc hreset

/-- From any history on: a step that fails fatally leaves a machine that is stuck whatever is done to
it short of a reset, a machine that is found faulted got so in a step since the last reset, and the
operations of the host leave the status as it is. -/
theorem fault_lasts_until_reset (random : RandomSource) (dialect : Dialect)
    (ops : List Operation) :
    (∀ f, ((start random dialect).after ops).step.result = .error f → f.isFatal = true →
      ∀ later, .reset ∉ later → Stuck ((start random dialect).after ops).step.machine f later) ∧
    (∀ f, ((start random dialect).after ops).status = .faulted f →
      FaultedIn (start random dialect) f ops) ∧
    ∀ op, op ≠ .step → op ≠ .reset →
      (((start random dialect).after ops).perform op).machine.status =
        ((start random dialect).after ops).status := by
  have hstart := sound_start random dialect
  have hm := hstart.after ops
  refine ⟨?_, ?_, ?_⟩
  · intro f hresult hfatal later hlater
    exact stuck_after hm.step (status_step_of_fatal hresult hfatal) later hlater
  · intro f hs
    exact faultedIn_of_status hstart rfl ops hs
  · intro op hstep hreset
    exact (sameProcessor_perform hm hstep hreset).status

def returnFirst : List Operation := [.load [0x00, 0xee]]

/-- The last failure is that of a key that there is not, and the steps still answer with the fault. -/
theorem fault_lasts_until_reset_underflow :
    Stuck ((start ⟨fun _ => 0, 0⟩ {}).after returnFirst).step.machine (.stackUnderflow 0x200)
        [.load [0x12, 0x34], .setKey 16 true, .step] ∧
      (((start ⟨fun _ => 0, 0⟩ {}).after returnFirst).step.machine.after
        [.load [0x12, 0x34], .setKey 16 true, .step]).lastFailure = some (.invalidKey 16) ∧
      FaultedIn (start ⟨fun _ => 0, 0⟩ {}) (.stackUnderflow 0x200) (returnFirst ++ [.step]) ∧
      (((start ⟨fun _ => 0, 0⟩ {}).after returnFirst).perform (.setKey 16 true)).machine.status =
        ((start ⟨fun _ => 0, 0⟩ {}).after returnFirst).status := by
  have facts : ((start ⟨fun _ => 0, 0⟩ {}).after returnFirst).step.result =
        .error (.stackUnderflow 0x200) ∧
      ((start ⟨fun _ => 0, 0⟩ {}).after (returnFirst ++ [.step])).status =
        .faulted (.stackUnderflow 0x200) ∧
      (((start ⟨fun _ => 0, 0⟩ {}).after returnFirst).step.machine.after
        [.load [0x12, 0x34], .setKey 16 true, .step]).lastFailure = some (.invalidKey 16) := by
    decide +kernel
  obtain ⟨hresult, hstatus, hlast⟩ := facts
  obtain ⟨hstuck, -, hhost⟩ := fault_lasts_until_reset ⟨fun _ => 0, 0⟩ {} returnFirst
  obtain ⟨-, hbegan, -⟩ := fault_lasts_until_reset ⟨fun _ => 0, 0⟩ {} (returnFirst ++ [.step])
  exact ⟨hstuck _ hresult rfl _ (by simp), hlast, hbegan _ hstatus, hhost _ nofun nofun⟩

end ChipEight.Machine
