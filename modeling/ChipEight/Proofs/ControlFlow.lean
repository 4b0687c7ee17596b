import ChipEight.Execution
import ChipEight.Proofs.Ranges

/-! What an executed instruction does to the parts of the machine that decide what comes next. The
base addresses, the keypad, the dialect and the last failure stay; the program counter, the stack and
the status change in the few ways that `Flow` lists, one for each kind of instruction. -/
namespace ChipEight.Machine

/-- The parts that no instruction writes. -/
structure SameSetting (m m' : Machine) : Prop where
  programBase : m'.memory.programBase = m.memory.programBase
  fontBase : m'.memory.fontBase = m.memory.fontBase
  keypad : m'.keypad = m.keypad
  dialect : m'.dialect = m.dialect
  lastFailure : m'.lastFailure = m.lastFailure

/-- How the machine goes on after an instruction, from `m` with the counter already past it. -/
inductive Flow (m m' : Machine) : Instruction → Prop
  | straight {i : Instruction} (pc : m'.pc = m.pc) (stack : m'.stack = m.stack)
      (status : m'.status = m.status) : Flow m m' i
  | skips {c : Condition} (holds : m.holds c = true) (pc : m'.pc = m.pc + 2)
      (stack : m'.stack = m.stack) (status : m'.status = m.status) : Flow m m' (.skip c)
  | jumps {a : Address} (pc : m'.pc = UInt16.ofNat a.val) (stack : m'.stack = m.stack)
      (status : m'.status = m.status) : Flow m m' (.jump a)
  | jumpsOffset {a : Address} (pc : m'.pc = UInt16.ofNat a.val + (m.v.get 0).toUInt16)
      (stack : m'.stack = m.stack) (status : m'.status = m.status) : Flow m m' (.jumpOffset a)
  | calls {a : Address} (push : m.stack.push? m.pc = some m'.stack)
      (pc : m'.pc = UInt16.ofNat a.val) (status : m'.status = m.status) : Flow m m' (.call a)
  | returns (pop : m.stack.pop? = some (m'.pc, m'.stack)) (status : m'.status = m.status) :
      Flow m m' .ret
  | waits {x : Register} (released : m.keypad.firstPressed = none)
      (eq : m' = { m with status := .awaitingKey x }) : Flow m m' (.waitKey x)

lemma combine_eq (m : Machine) (op : BinaryOp) (x y : Register) :
    ∃ v, m.combine op x y = { m with v := v } := by
  simp only [combine]
  split
  · exact ⟨_, rfl⟩
  · exact ⟨_, rfl⟩

/-- What decides the next step, read off an instruction that was executed. -/
theorem execute_flow {pc : UInt16} {i : Instruction} {m m' : Machine}
    (h : execute pc i m = .ok m') : SameSetting m m' ∧ Flow m m' i := by
  cases i with
  | ret =>
    simp only [execute] at h
    cases hp : m.stack.pop? with
    | none => simp [hp] at h
    | some p =>
      simp only [hp, Except.ok.injEq] at h
      subst m'
      exact ⟨⟨rfl, rfl, rfl, rfl, rfl⟩, .returns hp rfl⟩
  | jump a =>
    simp only [execute, Except.ok.injEq] at h
    subst m'
    exact ⟨⟨rfl, rfl, rfl, rfl, rfl⟩, .jumps rfl rfl rfl⟩
  | call a =>
    simp only [execute] at h
    cases hp : m.stack.push? m.pc with
    | none => simp [hp] at h
    | some stack =>
      simp only [hp, Except.ok.injEq] at h
      subst m'
      exact ⟨⟨rfl, rfl, rfl, rfl, rfl⟩, .calls hp rfl rfl⟩
  | jumpOffset a =>
    simp only [execute, Except.ok.injEq] at h
    subst m'
    exact ⟨⟨rfl, rfl, rfl, rfl, rfl⟩, .jumpsOffset rfl rfl rfl⟩
  | skip c =>
    simp only [execute, skipWhen, Except.ok.injEq] at h
    subst m'
    cases hc : m.holds c with
    | true => exact ⟨⟨rfl, rfl, rfl, rfl, rfl⟩, .skips hc rfl rfl rfl⟩
    | false => exact ⟨⟨rfl, rfl, rfl, rfl, rfl⟩, .straight rfl rfl rfl⟩
  | waitKey x =>
    simp only [execute] at h
    cases hk : m.keypad.firstPressed with
    | none =>
      simp only [hk, Except.ok.injEq] at h
      subst m'
      exact ⟨⟨rfl, rfl, rfl, rfl, rfl⟩, .waits hk rfl⟩
    | some key =>
      simp only [hk, Except.ok.injEq] at h
      subst m'
      exact ⟨⟨rfl, rfl, rfl, rfl, rfl⟩, .straight rfl rfl rfl⟩
  | combine op x y =>
    simp only [execute, Except.ok.injEq] at h
    obtain ⟨v, hv⟩ := m.combine_eq op x y
    subst m'
    rw [hv]
    exact ⟨⟨rfl, rfl, rfl, rfl, rfl⟩, .straight rfl rfl rfl⟩
  | draw x y height =>
    simp only [execute, map_eq_ok_iff] at h
    obtain ⟨sprite, -, rfl⟩ := h
    exact ⟨⟨rfl, rfl, rfl, rfl, rfl⟩, .straight rfl rfl rfl⟩
  | storeDecimal x =>
    simp only [execute, map_eq_ok_iff] at h
    obtain ⟨memory, hw, rfl⟩ := h
    obtain ⟨-, rfl⟩ := (Memory.write_eq_ok_iff _ _ _ _).1 hw
    exact ⟨⟨rfl, rfl, rfl, rfl, rfl⟩, .straight rfl rfl rfl⟩
  | storeBlock last =>
    simp only [execute, map_eq_ok_iff] at h
    obtain ⟨memory, hw, rfl⟩ := h
    obtain ⟨-, rfl⟩ := (Memory.write_eq_ok_iff _ _ _ _).1 hw
    exact ⟨⟨rfl, rfl, rfl, rfl, rfl⟩, .straight rfl rfl rfl⟩
  | loadBlock last =>
    simp only [execute, map_eq_ok_iff] at h
    obtain ⟨data, -, rfl⟩ := h
    exact ⟨⟨rfl, rfl, rfl, rfl, rfl⟩, .straight rfl rfl rfl⟩
  | _ =>
    simp only [execute, Except.ok.injEq] at h
    subst m'
    exact ⟨⟨rfl, rfl, rfl, rfl, rfl⟩, .straight rfl rfl rfl⟩

end ChipEight.Machine
