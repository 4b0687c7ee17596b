import ChipEight.Instruction

/-! The results of the two-register operations on bytes. Some of them also set the flag register: a
carry, the absence of a borrow, or the bit that a shift drops. -/
namespace ChipEight

/-- What programs disagree about: whether the shifts take their operand from the second register, and
whether a block transfer leaves the index register past the block. -/
structure Dialect where
  shiftsSecond : Bool := false
  transferAdvances : Bool := false
  deriving DecidableEq

structure AluResult where
  value : UInt8
  flag : Option Bool := none
  deriving DecidableEq

def shiftOperand (d : Dialect) (a b : UInt8) : UInt8 := if d.shiftsSecond then b else a

def BinaryOp.compute (op : BinaryOp) (d : Dialect) (a b : UInt8) : AluResult :=
  match op with
  | .move => { value := b }
  | .or => { value := a ||| b }
  | .and => { value := a &&& b }
  | .xor => { value := a ^^^ b }
  | .add => { value := a + b, flag := some (255 < a.toNat + b.toNat) }
  | .sub => { value := a - b, flag := some (b ≤ a) }
  | .subReverse => { value := b - a, flag := some (a ≤ b) }
  | .shiftRight =>
    let s := shiftOperand d a b
    { value := s >>> 1, flag := some (s % 2 == 1) }
  | .shiftLeft =>
    let s := shiftOperand d a b
    { value := s <<< 1, flag := some (128 ≤ s) }

/-- The three decimal digits of a byte. -/
def decimalDigits (b : UInt8) : List UInt8 := [b / 100, b / 10 % 10, b % 10]

theorem decimalDigits_le_nine (b : UInt8) : ∀ d ∈ decimalDigits b, d ≤ 9 := by
  have hb := b.toNat_lt
  simp only [decimalDigits, List.mem_cons, List.not_mem_nil, or_false]
  rintro d (rfl | rfl | rfl) <;> rw [UInt8.le_iff_toNat_le] <;> simp <;> omega

theorem decimalDigits_sum (b : UInt8) :
    100 * (b / 100).toNat + 10 * (b / 10 % 10).toNat + (b % 10).toNat = b.toNat := by
  have hb := b.toNat_lt
  simp; omega

end ChipEight
