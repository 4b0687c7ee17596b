import ChipEight.Proofs.StepCases

/-! What an instruction does to the two devices that a machine carries besides its screen and its keys:
the timers, which two instructions set and none winds down, and the source of random words, of which one
instruction takes one. What a step leaves of them follows. -/
namespace ChipEight.Machine

def timersAfter (m : Machine) : Instruction → Timers
  | .setDelay x => { m.timers with delay := m.v.get x }
  | .setSound x => { m.timers with sound := m.v.get x }
  | _ => m.timers

def randomAfter (m : Machine) : Instruction → RandomSource
  | .random _ _ => m.random.next.2
  | _ => m.random

theorem execute_devices {pc : UInt16} {i : Instruction} {m m' : Machine}
    (h : execute pc i m = .ok m') : m'.timers = m.timersAfter i ∧ m'.random = m.randomAfter i := by
  cases i with
  | ret =>
    simp only [execute] at h
    cases hp : m.stack.pop? with
    | none => simp [hp] at h
    | some p =>
      simp only [hp, Except.ok.injEq] at h
      subst m'
      exact ⟨rfl, rfl⟩
  | call a =>
    simp only [execute] at h
    cases hp : m.stack.push? m.pc with
    | none => simp [hp] at h
    | some stack =>
      simp only [hp, Except.ok.injEq] at h
      subst m'
      exact ⟨rfl, rfl⟩
  | skip c =>
    simp only [execute, skipWhen, Except.ok.injEq] at h
    subst m'
    cases m.holds c <;> exact ⟨rfl, rfl⟩
  | combine op x y =>
    simp only [execute, Except.ok.injEq] at h
    obtain ⟨v, hv⟩ := m.combine_eq op x y
    subst m'
    rw [hv]
    exact ⟨rfl, rfl⟩
  | waitKey x =>
    simp only [execute] at h
    cases hk : m.keypad.firstPressed with
    | none | some _ =>
      simp only [hk, Except.ok.injEq] at h
      subst m'
      exact ⟨rfl, rfl⟩
  | draw _ _ _ | storeDecimal _ | storeBlock _ | loadBlock _ =>
    simp only [execute, map_eq_ok_iff] at h
    obtain ⟨_, -, rfl⟩ := h
    exact ⟨rfl, rfl⟩
  | _ =>
    simp only [execute, Except.ok.injEq] at h
    subst m'
    exact ⟨rfl, rfl⟩

variable {m : Machine}

/-- The sound timer runs on unless the step is the one that sets it. -/
theorem sound_step (h : ∀ x, m.next? ≠ some (.setSound x)) :
    m.step.machine.timers.sound = m.timers.sound := by
  have hcase := step_cases m
  generalize m.step = r at hcase
  cases hcase with
  | stuck _ | idle _ _ | resumed _ _ | failed _ => rfl
  | @executed w i done _ next _ he =>
    obtain ⟨htimers, -⟩ := execute_devices he
    rw [htimers]
    cases i with
    | setSound x => exact absurd next (h x)
    | _ => rfl

theorem word_step (m : Machine) : m.step.machine.random.word = m.random.word := by
  have hcase := step_cases m
  generalize m.step = r at hcase
  cases hcase with
  | stuck _ | idle _ _ | resumed _ _ | failed _ => rfl
  | @executed w i done _ _ _ he =>
    obtain ⟨-, hrandom⟩ := execute_devices he
    rw [hrandom]
    cases i with
    | random _ _ => exact RandomSource.word_next m.random
    | _ => rfl

theorem dialect_step (m : Machine) : m.step.machine.dialect = m.dialect := by
  have hcase := step_cases m
  generalize m.step = r at hcase
  cases hcase with
  | stuck _ | idle _ _ | resumed _ _ | failed _ => rfl
  | executed _ _ _ he =>
    obtain ⟨hset, -⟩ := execute_flow he
    exact hset.dialect

end ChipEight.Machine
