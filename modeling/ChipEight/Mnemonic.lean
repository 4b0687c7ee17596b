import ChipEight.Hex
import ChipEight.Instruction

/-! The assembler line of an instruction: the name of an operation and its operands, first as data
and then as text. -/
namespace ChipEight

inductive Operand
  | register (x : Register)
  | byte (nn : UInt8)
  | address (nnn : Address)
  | height (n : Fin 16)
  | index
  | indexed
  | delay
  | sound
  | key
  | glyph
  | decimal
  deriving DecidableEq

def Operand.text : Operand → String
  | register x => "V" ++ String.singleton (Hex.upperDigit x)
  | byte nn => Hex.padded 2 nn.toNat
  | address nnn => Hex.padded 3 nnn.val
  | height n => n.val.repr
  | index => "I"
  | indexed => "[I]"
  | delay => "DT"
  | sound => "ST"
  | key => "K"
  | glyph => "F"
  | decimal => "B"

structure Mnemonic where
  name : String
  operands : List Operand := []
  deriving DecidableEq

namespace Mnemonic

/-- The operands after the first each follow a comma and a blank. -/
def joined : List Operand → String
  | [] => ""
  | [o] => o.text
  | o :: os => o.text ++ ", " ++ joined os

def text (m : Mnemonic) : String :=
  match m.operands with
  | [] => m.name
  | os => m.name ++ " " ++ joined os

end Mnemonic

def BinaryOp.name : BinaryOp → String
  | move => "LD"
  | or => "OR"
  | and => "AND"
  | xor => "XOR"
  | add => "ADD"
  | sub => "SUB"
  | shiftRight => "SHR"
  | subReverse => "SUBN"
  | shiftLeft => "SHL"

def Condition.mnemonic : Condition → Mnemonic
  | isByte x nn => ⟨"SE", [.register x, .byte nn]⟩
  | isNotByte x nn => ⟨"SNE", [.register x, .byte nn]⟩
  | same x y => ⟨"SE", [.register x, .register y]⟩
  | differ x y => ⟨"SNE", [.register x, .register y]⟩
  | keyDown x => ⟨"SKP", [.register x]⟩
  | keyUp x => ⟨"SKNP", [.register x]⟩

def Instruction.mnemonic : Instruction → Mnemonic
  | clearScreen => ⟨"CLS", []⟩
  | ret => ⟨"RET", []⟩
  | jump a => ⟨"JP", [.address a]⟩
  | call a => ⟨"CALL", [.address a]⟩
  | jumpOffset a => ⟨"JP", [.register 0, .address a]⟩
  | skip c => c.mnemonic
  | loadByte x nn => ⟨"LD", [.register x, .byte nn]⟩
  | addByte x nn => ⟨"ADD", [.register x, .byte nn]⟩
  | combine op x y => ⟨op.name, [.register x, .register y]⟩
  | loadIndex a => ⟨"LD", [.index, .address a]⟩
  | addIndex x => ⟨"ADD", [.index, .register x]⟩
  | loadGlyph x => ⟨"LD", [.glyph, .register x]⟩
  | random x nn => ⟨"RND", [.register x, .byte nn]⟩
  | draw x y n => ⟨"DRW", [.register x, .register y, .height n]⟩
  | waitKey x => ⟨"LD", [.register x, .key]⟩
  | getDelay x => ⟨"LD", [.register x, .delay]⟩
  | setDelay x => ⟨"LD", [.delay, .register x]⟩
  | setSound x => ⟨"LD", [.sound, .register x]⟩
  | storeDecimal x => ⟨"LD", [.decimal, .register x]⟩
  | storeBlock x => ⟨"LD", [.indexed, .register x]⟩
  | loadBlock x => ⟨"LD", [.register x, .indexed]⟩

end ChipEight
