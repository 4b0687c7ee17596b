import ChipEight.Proofs.Stepwise
import ChipEight.Proofs.WriteSets

/-! The arithmetic of the instructions that set the flag. The flag is what the result has no room for: the
carry of a sum, the borrow of a difference the other way round, or the bit that a shift drops; so together
they give the numbers back that went in. It is set after the result, and whatever registers the operands
stand in, they are read before. -/
namespace ChipEight

lemma shiftOperand_toNat (d : Dialect) (a b : UInt8) :
    (shiftOperand d a b).toNat = if d.shiftsSecond then b.toNat else a.toNat := by
  unfold shiftOperand
  split <;> rfl

lemma toNat_shiftRight_one (s : UInt8) : (s >>> 1).toNat = s.toNat / 2 := by
  simp [Nat.shiftRight_eq_div_pow]

lemma toNat_shiftLeft_one (s : UInt8) : (s <<< 1).toNat = 2 * s.toNat % 256 := by
  simp [Nat.shiftLeft_eq, Nat.mul_comm]

lemma toNat_flag (flag : Bool) : (if flag then 1 else 0 : UInt8).toNat = flag.toNat := by
  cases flag <;> rfl

lemma toNat_lowest_bit (s : UInt8) : (s % 2 == 1).toNat = s.toNat % 2 := by
  rw [← toNat_flag, ← Stepwise.and_one_eq]
  simp [Nat.and_one_is_mod]

lemma toNat_highest_bit (s : UInt8) : (decide (128 ≤ s)).toNat = s.toNat / 128 := by
  rw [← toNat_flag, ← Stepwise.shiftRight_seven_eq]
  simp [Nat.shiftRight_eq_div_pow]

lemma add_balances (a b : UInt8) : (a.toNat : Int) + b.toNat =
    (a + b).toNat + 256 * ((if 255 < a.toNat + b.toNat then 1 else 0 : Nat) : Int) := by
  have ha := a.toNat_lt
  have hb := b.toNat_lt
  rw [UInt8.toNat_add]
  by_cases h : 255 < a.toNat + b.toNat
  · rw [if_pos h]
    omega
  · rw [if_neg h]
    omega

lemma sub_balances (a b : UInt8) : (a.toNat : Int) - b.toNat =
    (a - b).toNat - 256 * (1 - ((if b.toNat ≤ a.toNat then 1 else 0 : Nat) : Int)) := by
  have ha := a.toNat_lt
  have hb := b.toNat_lt
  rw [UInt8.toNat_sub]
  by_cases h : b.toNat ≤ a.toNat
  · rw [if_pos h]
    omega
  · rw [if_neg h]
    omega

namespace Machine

def value (m : Machine) (x : Register) : Nat := (m.v.get x).toNat

/-- The number that a shift works on, which is that of the second register in one of the dialects. -/
def shifted (m : Machine) (x y : Register) : Nat :=
  if m.dialect.shiftsSecond then m.value y else m.value x

/-- An instruction goes well, and it leaves the same machine if it is done one assignment after the other. -/
def Executes (m : Machine) (i : Instruction) (leaves : Machine → Prop) : Prop :=
  ∃ m', (∀ pc, execute pc i m = .ok m') ∧ (∀ pc, Stepwise.execute pc i m = .done () m') ∧ leaves m'

/-- The flag is set, even if a result has just gone to its register; the result stands in `x`, if that is
another register, and balances with the flag; and all else is as it was. -/
structure Computed (m : Machine) (x : Register) (flag : Nat) (balances : Int → Int → Prop)
    (m' : Machine) : Prop where
  flag : m'.value 15 = flag
  bit : m'.value 15 = 0 ∨ m'.value 15 = 1
  balances : x ≠ 15 → balances (m'.value x) (m'.value 15)
  kept : ∀ k, k ≠ x → k ≠ 15 → m'.value k = m.value k
  rest : m' = { m with v := m'.v }

variable {m : Machine}

lemma value_setRegister (m : Machine) (x : Register) (b : UInt8) (k : Register) :
    (m.setRegister x b).value k = if x = k then b.toNat else m.value k := by
  rw [value, get_setRegister]
  split <;> rfl

lemma value_setFlag (m : Machine) (flag : Bool) (k : Register) :
    (m.setFlag flag).value k = if 15 = k then flag.toNat else m.value k := by
  rw [setFlag, value_setRegister, toNat_flag]

lemma executes_combine {op : BinaryOp} {x y : Register} {result : UInt8} {flag : Bool} {n : Nat}
    {balances : Int → Int → Prop}
    (hcompute : op.compute m.dialect (m.v.get x) (m.v.get y) = ⟨result, some flag⟩)
    (hn : flag.toNat = n) (hbalances : balances result.toNat n) :
    Executes m (.combine op x y) (Computed m x n balances) := by
  have hcombine : m.combine op x y = (m.setRegister x result).setFlag flag := by
    simp only [combine, ← get_v, hcompute]
  refine ⟨(m.setRegister x result).setFlag flag, ?_, ?_, ?_⟩
  · intro pc
    rw [← hcombine]
    rfl
  · intro pc
    rw [← hcombine]
    exact Stepwise.combine_apply op x y
  · have hflag : ((m.setRegister x result).setFlag flag).value 15 = n := by
      rw [value_setFlag, if_pos rfl, hn]
    refine ⟨hflag, ?_, ?_, ?_, rfl⟩
    · rw [hflag, ← hn]
      cases flag with
      | false => exact .inl rfl
      | true => exact .inr rfl
    · intro hx
      rw [hflag, value_setFlag, if_neg (Ne.symm hx), value_setRegister, if_pos rfl]
      exact hbalances
    · intro k hkx hkf
      rw [value_setFlag, if_neg (Ne.symm hkf), value_setRegister, if_neg (Ne.symm hkx)]

lemma executes_add (m : Machine) (x y : Register) :
    Executes m (.combine .add x y) (Computed m x (if 255 < m.value x + m.value y then 1 else 0)
      fun r f => m.value x + m.value y = r + 256 * f) :=
  executes_combine rfl (Bool.cond_decide _ _ _) (add_balances _ _)

lemma executes_sub (m : Machine) (x y : Register) :
    Executes m (.combine .sub x y) (Computed m x (if m.value y ≤ m.value x then 1 else 0)
      fun r f => m.value x - m.value y = r - 256 * (1 - f)) :=
  executes_combine rfl (Bool.cond_decide _ _ _) (sub_balances _ _)

lemma executes_subReverse (m : Machine) (x y : Register) :
    Executes m (.combine .subReverse x y) (Computed m x (if m.value x ≤ m.value y then 1 else 0)
      fun r f => m.value y - m.value x = r - 256 * (1 - f)) :=
  executes_combine rfl (Bool.cond_decide _ _ _) (sub_balances _ _)

lemma shifted_eq (m : Machine) (x y : Register) :
    m.shifted x y = (shiftOperand m.dialect (m.v.get x) (m.v.get y)).toNat :=
  (shiftOperand_toNat _ _ _).symm

lemma executes_shiftRight (m : Machine) (x y : Register) :
    Executes m (.combine .shiftRight x y) (Computed m x (m.shifted x y % 2)
      fun r f => m.shifted x y = 2 * r + f) := by
  rw [shifted_eq]
  refine executes_combine rfl (toNat_lowest_bit _) ?_
  rw [toNat_shiftRight_one]
  omega

lemma executes_shiftLeft (m : Machine) (x y : Register) :
    Executes m (.combine .shiftLeft x y) (Computed m x (m.shifted x y / 128)
      fun r f => 2 * m.shifted x y = r + 256 * f) := by
  rw [shifted_eq]
  have hlt := (shiftOperand m.dialect (m.v.get x) (m.v.get y)).toNat_lt
  refine executes_combine rfl (toNat_highest_bit _) ?_
  rw [toNat_shiftLeft_one]
  omega

/-- What an addition to the index leaves: the index goes round at 65536, and the flag tells whether it has
left memory. -/
structure Indexed (m : Machine) (x : Register) (m' : Machine) : Prop where
  index : m'.index.toNat = (m.index.toNat + m.value x) % 65536
  bit : m'.value 15 = 0 ∨ m'.value 15 = 1
  flag : m'.value 15 = 1 ↔ 0x1000 ≤ m'.index.toNat
  kept : ∀ k, k ≠ 15 → m'.value k = m.value k
  rest : m' = { m with v := m'.v, index := m'.index }

lemma executes_addIndex (m : Machine) (x : Register) :
    Executes m (.addIndex x) (Indexed m x) := by
  let index := m.index + (m.v.get x).toUInt16
  refine ⟨{ m with index := index }.setFlag (0x1000 ≤ index), fun pc => rfl, ?_, ?_⟩
  · intro pc
    simp only [Stepwise.execute, Action.bind_apply, Action.register_val, Action.modify_apply,
      Action.get_apply, Action.setFlag_apply]
    rfl
  · have hflag : ({ m with index := index }.setFlag (0x1000 ≤ index)).value 15 =
        if 0x1000 ≤ index then 1 else 0 := by
      rw [value_setFlag, if_pos rfl]
      exact Bool.cond_decide _ _ _
    refine ⟨?_, ?_, ?_, ?_, rfl⟩
    · exact (UInt16.toNat_add _ _).trans (by rw [UInt8.toNat_toUInt16]; rfl)
    · rw [hflag]
      split
      · exact .inr rfl
      · exact .inl rfl
    · have hle : 0x1000 ≤ index ↔ 0x1000 ≤ index.toNat := UInt16.le_iff_toNat_le
      change _ ↔ 0x1000 ≤ index.toNat
      rw [hflag, ← hle]
      simp
    · intro k hk
      rw [value_setFlag, if_neg (Ne.symm hk)]
      rfl

/-- Each of these instructions does what its equation says, whichever registers it is given: the flag ends
up in the flag register, and the result in its own, the more so if one of the operands stood there. -/
theorem arithmetic_is_exact (m : Machine) (x y : Register) :
    Executes m (.combine .add x y) (Computed m x (if 255 < m.value x + m.value y then 1 else 0)
      fun r f => m.value x + m.value y = r + 256 * f) ∧
    Executes m (.combine .sub x y) (Computed m x (if m.value y ≤ m.value x then 1 else 0)
      fun r f => m.value x - m.value y = r - 256 * (1 - f)) ∧
    Executes m (.combine .subReverse x y) (Computed m x (if m.value x ≤ m.value y then 1 else 0)
      fun r f => m.value y - m.value x = r - 256 * (1 - f)) ∧
    Executes m (.combine .shiftRight x y) (Computed m x (m.shifted x y % 2)
      fun r f => m.shifted x y = 2 * r + f) ∧
    Executes m (.combine .shiftLeft x y) (Computed m x (m.shifted x y / 128)
      fun r f => 2 * m.shifted x y = r + 256 * f) ∧
    Executes m (.addIndex x) (Indexed m x) :=
  ⟨executes_add m x y, executes_sub m x y, executes_subReverse m x y, executes_shiftRight m x y,
    executes_shiftLeft m x y, executes_addIndex m x⟩

/-- The carry takes the place of the sum if that goes to the flag register. -/
example : (((start ⟨fun _ => 0, 0⟩ {}).setRegister 15 200).combine .add 15 15).value 15 = 1 := by
  decide

end Machine

end ChipEight
