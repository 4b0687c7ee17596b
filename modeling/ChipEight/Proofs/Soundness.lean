import ChipEight.Operation
import ChipEight.Proofs.ControlFlow

/-! What holds of every machine that some history leads to: where the program counter and the return
addresses can be, what a wait and a fault remember, and that the base addresses never move. The bound
on the program counter needs the one on the return addresses, and that one the bound of the fetch. -/
namespace ChipEight

/-- Every slot in use holds an address that a fetch can leave behind. -/
def CallStack.Bounded (s : CallStack) : Prop :=
  ∀ k : Fin 16, k.val < s.depth.val → 2 ≤ (s.slots.get k).toNat ∧ (s.slots.get k).toNat ≤ 0x1000

namespace CallStack

lemma bounded_empty : empty.Bounded := fun k hk => absurd hk (Nat.not_lt_zero k.val)

lemma get_set {α : Type} {n i : Nat} (v : Vector α n) (hi : i < n) (a : α) (k : Fin n) :
    (v.set i a hi).get k = if i = k.val then a else v.get k :=
  Vector.getElem_set hi k.isLt

lemma Bounded.push {s t : CallStack} {a : UInt16} (hs : s.Bounded) (ha : 2 ≤ a.toNat)
    (ha' : a.toNat ≤ 0x1000) (h : s.push? a = some t) : t.Bounded := by
  unfold push? at h
  split at h
  · cases h
    intro k hk
    by_cases he : s.depth.val = k.val
    · simpa only [get_set, if_pos he] using ⟨ha, ha'⟩
    · have hlt : k.val < s.depth.val := by
        simp only at hk
        omega
      simpa only [get_set, if_neg he] using hs k hlt
  · cases h

lemma Bounded.pop {s t : CallStack} {a : UInt16} (hs : s.Bounded) (h : s.pop? = some (a, t)) :
    2 ≤ a.toNat ∧ a.toNat ≤ 0x1000 ∧ t.Bounded := by
  unfold pop? at h
  split at h
  case isTrue hd =>
    cases h
    have htop := hs ⟨s.depth.val - 1, by omega⟩ (by simp only; omega)
    refine ⟨htop.1, htop.2, ?_⟩
    intro k hk
    apply hs k
    simp only at hk
    omega
  case isFalse => cases h

end CallStack

namespace Machine

structure Sound (m : Machine) : Prop where
  size : m.memory.bytes.toList.length = 4096
  programBase : m.memory.programBase = 0x200
  fontBase : m.memory.fontBase = 0x050
  depth : m.stack.depth.val ≤ 16
  slots : m.stack.Bounded
  pc : m.pc.toNat ≤ 0x10fe
  awaiting : ∀ x, m.status = .awaitingKey x → x.val < 16 ∧ 2 ≤ m.pc.toNat ∧ m.pc.toNat ≤ 0x1000
  fatal : ∀ f, m.status = .faulted f → f.isFatal = true

variable {m m' : Machine}

/-- Soundness looks at the base addresses, the stack, the program counter and the status only. -/
lemma Sound.congr (hm : m.Sound) (programBase : m'.memory.programBase = m.memory.programBase)
    (fontBase : m'.memory.fontBase = m.memory.fontBase) (stack : m'.stack = m.stack)
    (pc : m'.pc = m.pc) (status : m'.status = m.status) : m'.Sound where
  size := by simp
  programBase := programBase.trans hm.programBase
  fontBase := fontBase.trans hm.fontBase
  depth := by omega
  slots := stack ▸ hm.slots
  pc := pc ▸ hm.pc
  awaiting := by rw [status, pc]; exact hm.awaiting
  fatal := by rw [status]; exact hm.fatal

lemma sound_start (random : RandomSource) (dialect : Dialect) : (start random dialect).Sound where
  size := by simp
  programBase := rfl
  fontBase := rfl
  depth := by omega
  slots := CallStack.bounded_empty
  pc := by simp [start]
  awaiting := nofun
  fatal := nofun

lemma Sound.resetState (hm : m.Sound) : m.resetState.Sound where
  size := by simp
  programBase := by simpa only [Machine.resetState, Memory.reset] using hm.programBase
  fontBase := by simpa only [Machine.resetState, Memory.reset] using hm.fontBase
  depth := by omega
  slots := CallStack.bounded_empty
  pc := by simp [Machine.resetState, hm.programBase]
  awaiting := nofun
  fatal := nofun

lemma Sound.fail (hm : m.Sound) (f : Failure) : (m.fail f).machine.Sound := by
  cases hf : f.isFatal with
  | false =>
    rw [fail_of_not_fatal m hf]
    exact hm.congr rfl rfl rfl rfl rfl
  | true =>
    rw [fail_of_fatal m hf]
    refine { hm with awaiting := nofun, fatal := ?_ }
    intro g hg
    cases hg
    exact hf

lemma Sound.load (hm : m.Sound) (program : List UInt8) : (m.load program).machine.Sound := by
  unfold Machine.load
  split
  case h_1 memory h =>
    rw [Memory.loadProgram_eq_ok h]
    exact hm.congr rfl rfl rfl rfl rfl
  case h_2 => exact hm.fail _

lemma Sound.loadFrom (hm : m.Sound) (chunks : List Chunk) :
    (m.loadFrom chunks).machine.Sound := by
  unfold Machine.loadFrom
  split
  case h_1 memory h =>
    obtain ⟨program, -, hp⟩ := Memory.loadProgramFrom_eq_ok h
    rw [hp]
    exact hm.congr rfl rfl rfl rfl rfl
  case h_2 => exact hm.fail _

lemma Sound.setKey (hm : m.Sound) (index : Nat) (pressed : Bool) :
    (m.setKey index pressed).machine.Sound := by
  unfold Machine.setKey
  split
  · exact hm.congr rfl rfl rfl rfl rfl
  · exact hm.fail _

lemma Sound.pollKey (hm : m.Sound) (x : Register) : (m.pollKey x).machine.Sound := by
  unfold Machine.pollKey
  split
  · exact { hm with size := by simp, awaiting := nofun, fatal := nofun }
  · exact hm

/-- A word that can be fetched leaves room for the two bytes behind it. -/
lemma toNat_pc_advance {w : UInt16} (h : m.memory.word m.pc = .ok w) :
    m.advance.pc.toNat = m.pc.toNat + 2 ∧ m.pc.toNat + 2 ≤ 0x1000 := by
  obtain ⟨hle, -⟩ := (Memory.word_eq_ok_iff _ _ _).1 h
  refine ⟨?_, hle⟩
  simp only [advance, UInt16.toNat_add, UInt16.toNat_ofNat]
  omega

/-- An instruction that runs on may leave a new stack and a new program counter behind. -/
lemma Sound.moved (hm : m.Sound) (hset : SameSetting m m') (slots : m'.stack.Bounded)
    (pc : m'.pc.toNat ≤ 0x10fe) (hs : m'.status = .running) : m'.Sound where
  size := by simp
  programBase := hset.programBase.trans hm.programBase
  fontBase := hset.fontBase.trans hm.fontBase
  depth := by omega
  slots := slots
  pc := pc
  awaiting := by rw [hs]; nofun
  fatal := by rw [hs]; nofun

lemma Sound.execute (hm : m.Sound) (hs : m.status = .running) (hlo : 2 ≤ m.pc.toNat)
    (hhi : m.pc.toNat ≤ 0x1000) {pc : UInt16} {i : Instruction}
    (h : Machine.execute pc i m = .ok m') : m'.Sound := by
  obtain ⟨hset, hflow⟩ := execute_flow h
  cases hflow with
  | straight hpc stack status => exact hm.congr hset.programBase hset.fontBase stack hpc status
  | skips _ hpc stack status =>
    refine hm.moved hset (stack ▸ hm.slots) ?_ (status.trans hs)
    simp only [hpc, UInt16.toNat_add, UInt16.reduceToNat]
    omega
  | @jumps a hpc stack status =>
    have ha := a.isLt
    refine hm.moved hset (stack ▸ hm.slots) ?_ (status.trans hs)
    rw [hpc, UInt16.toNat_ofNat']
    omega
  | @jumpsOffset a hpc stack status =>
    have ha := a.isLt
    have hv := (m.v.get 0).toNat_lt
    refine hm.moved hset (stack ▸ hm.slots) ?_ (status.trans hs)
    rw [hpc, UInt16.toNat_add, UInt16.toNat_ofNat', UInt8.toNat_toUInt16]
    omega
  | @calls a push hpc status =>
    have ha := a.isLt
    refine hm.moved hset (hm.slots.push hlo hhi push) ?_ (status.trans hs)
    rw [hpc, UInt16.toNat_ofNat']
    omega
  | returns pop status =>
    obtain ⟨-, hle, hslots⟩ := hm.slots.pop pop
    exact hm.moved hset hslots (by omega) (status.trans hs)
  | @waits x _ heq =>
    subst m'
    refine { hm with awaiting := ?_, fatal := nofun }
    intro y hy
    cases hy
    exact ⟨x.isLt, hlo, hhi⟩

lemma Sound.cycle (hm : m.Sound) (hs : m.status = .running) : m.cycle.machine.Sound := by
  cases hw : m.memory.word m.pc with
  | error f =>
    rw [cycle_of_word_error hw]
    exact hm.fail f
  | ok w =>
    obtain ⟨hpc, hle⟩ := toNat_pc_advance hw
    have ha : m.advance.Sound :=
      hm.moved ⟨rfl, rfl, rfl, rfl, rfl⟩ hm.slots (by omega) hs
    cases hd : Instruction.decode? w with
    | none =>
      rw [cycle_of_undecodable hw hd]
      exact ha.fail _
    | some i =>
      rw [cycle_of_decode hw hd, issue]
      split
      case h_1 f _ => exact ha.fail f
      case h_2 done h => exact ha.execute hs (by omega) (by omega) h

lemma Sound.step (hm : m.Sound) : m.step.machine.Sound := by
  unfold Machine.step
  split
  · exact hm
  · exact hm.pollKey _
  case h_3 hs => exact hm.cycle hs

theorem Sound.perform (hm : m.Sound) (op : Operation) : (m.perform op).machine.Sound := by
  cases op with
  | load program => exact hm.load program
  | loadFrom chunks => exact hm.loadFrom chunks
  | reset => exact hm.resetState
  | step => exact hm.step
  | tick => exact hm.congr rfl rfl rfl rfl rfl
  | setKey index pressed => exact hm.setKey index pressed

theorem Sound.after (hm : m.Sound) (ops : List Operation) : (m.after ops).Sound := by
  induction ops generalizing m with
  | nil => exact hm
  | cons op ops ih => exact ih (hm.perform op)

theorem Reachable.sound (h : m.Reachable) : m.Sound := by
  obtain ⟨random, dialect, ops, rfl⟩ := h
  exact (sound_start random dialect).after ops

end Machine

end ChipEight
