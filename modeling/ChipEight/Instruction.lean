import ChipEight.Failure

/-! Instructions and their two-byte words. A word is read as four nibbles: a family, two registers
and a digit; the last two nibbles are also a byte and the last three an address. `encode` writes the
word of an instruction and `decode` reads it back, or reports a word of no instruction with its place. -/
namespace ChipEight

abbrev Register := Fin 16

abbrev Address := Fin 4096

/-- Named, so that a register written as a number is one and the same term everywhere. -/
instance neZero_sixteen : @NeZero Nat Zero.ofOfNat0 16 := ⟨by decide⟩

structure Fields where
  family : Fin 16
  x : Register
  y : Register
  n : Fin 16
  nn : UInt8
  nnn : Address
  deriving DecidableEq

def Fields.ofWord (w : UInt16) : Fields where
  family := Fin.ofNat 16 (w.toNat / 4096)
  x := Fin.ofNat 16 (w.toNat / 256)
  y := Fin.ofNat 16 (w.toNat / 16)
  n := Fin.ofNat 16 w.toNat
  nn := UInt8.ofNat w.toNat
  nnn := Fin.ofNat 4096 w.toNat

/-- What a skip instruction tests. -/
inductive Condition
  | isByte (x : Register) (nn : UInt8)
  | isNotByte (x : Register) (nn : UInt8)
  | same (x y : Register)
  | differ (x y : Register)
  | keyDown (x : Register)
  | keyUp (x : Register)
  deriving DecidableEq

/-- The operations of family 8, which combine two registers into the first. -/
inductive BinaryOp
  | move | or | and | xor | add | sub | shiftRight | subReverse | shiftLeft
  deriving DecidableEq

inductive Instruction
  | clearScreen
  | ret
  | jump (target : Address)
  | call (target : Address)
  | jumpOffset (base : Address)
  | skip (condition : Condition)
  | loadByte (x : Register) (nn : UInt8)
  | addByte (x : Register) (nn : UInt8)
  | combine (op : BinaryOp) (x y : Register)
  | loadIndex (target : Address)
  | addIndex (x : Register)
  | loadGlyph (x : Register)
  | random (x : Register) (mask : UInt8)
  | draw (x y : Register) (height : Fin 16)
  | waitKey (x : Register)
  | getDelay (x : Register)
  | setDelay (x : Register)
  | setSound (x : Register)
  | storeDecimal (x : Register)
  | storeBlock (last : Register)
  | loadBlock (last : Register)
  deriving DecidableEq

namespace BinaryOp

def nibble : BinaryOp → Fin 16
  | move => 0 | or => 1 | and => 2 | xor => 3 | add => 4 | sub => 5
  | shiftRight => 6 | subReverse => 7 | shiftLeft => 14

def ofNibble? : Fin 16 → Option BinaryOp
  | 0 => some move | 1 => some or | 2 => some and | 3 => some xor | 4 => some add | 5 => some sub
  | 6 => some shiftRight | 7 => some subReverse | 14 => some shiftLeft
  | _ => none

theorem ofNibble?_eq_some_iff (n : Fin 16) (op : BinaryOp) :
    ofNibble? n = some op ↔ op.nibble = n := by
  revert n; cases op <;> decide

end BinaryOp

namespace Instruction

/-- Family F selects by its last byte. -/
def ofDeviceByte? (x : Register) (nn : UInt8) : Option Instruction :=
  if nn = 0x07 then some (getDelay x)
  else if nn = 0x0a then some (waitKey x)
  else if nn = 0x15 then some (setDelay x)
  else if nn = 0x18 then some (setSound x)
  else if nn = 0x1e then some (addIndex x)
  else if nn = 0x29 then some (loadGlyph x)
  else if nn = 0x33 then some (storeDecimal x)
  else if nn = 0x55 then some (storeBlock x)
  else if nn = 0x65 then some (loadBlock x)
  else none

/-- The last case is family F. -/
def ofFields? (f : Fields) : Option Instruction :=
  match f.family with
  | 0x0 => if f.nnn = 0x0e0 then some clearScreen else if f.nnn = 0x0ee then some ret else none
  | 0x1 => some (jump f.nnn)
  | 0x2 => some (call f.nnn)
  | 0x3 => some (skip (.isByte f.x f.nn))
  | 0x4 => some (skip (.isNotByte f.x f.nn))
  | 0x5 => if f.n = 0 then some (skip (.same f.x f.y)) else none
  | 0x6 => some (loadByte f.x f.nn)
  | 0x7 => some (addByte f.x f.nn)
  | 0x8 => (BinaryOp.ofNibble? f.n).map (combine · f.x f.y)
  | 0x9 => if f.n = 0 then some (skip (.differ f.x f.y)) else none
  | 0xa => some (loadIndex f.nnn)
  | 0xb => some (jumpOffset f.nnn)
  | 0xc => some (random f.x f.nn)
  | 0xd => some (draw f.x f.y f.n)
  | 0xe =>
    if f.nn = 0x9e then some (skip (.keyDown f.x))
    else if f.nn = 0xa1 then some (skip (.keyUp f.x))
    else none
  | _ => ofDeviceByte? f.x f.nn

def decode? (w : UInt16) : Option Instruction := ofFields? (Fields.ofWord w)

/-- `pc` tells where the word stands, and matters to a failure only. -/
def decode (w pc : UInt16) : Except Failure Instruction :=
  match decode? w with
  | some i => .ok i
  | none => .error (.unknownOpcode w pc)

/-- The word of a family, a register and a byte. -/
def byteWord (family x : Fin 16) (nn : UInt8) : UInt16 :=
  UInt16.ofNat (family.val * 4096 + x.val * 256 + nn.toNat)

def addressWord (family : Fin 16) (nnn : Address) : UInt16 :=
  UInt16.ofNat (family.val * 4096 + nnn.val)

def nibbleWord (family x y n : Fin 16) : UInt16 :=
  UInt16.ofNat (family.val * 4096 + x.val * 256 + y.val * 16 + n.val)

def encode : Instruction → UInt16
  | clearScreen => 0x00e0
  | ret => 0x00ee
  | jump a => addressWord 0x1 a
  | call a => addressWord 0x2 a
  | skip (.isByte x nn) => byteWord 0x3 x nn
  | skip (.isNotByte x nn) => byteWord 0x4 x nn
  | skip (.same x y) => nibbleWord 0x5 x y 0
  | loadByte x nn => byteWord 0x6 x nn
  | addByte x nn => byteWord 0x7 x nn
  | combine op x y => nibbleWord 0x8 x y op.nibble
  | skip (.differ x y) => nibbleWord 0x9 x y 0
  | loadIndex a => addressWord 0xa a
  | jumpOffset a => addressWord 0xb a
  | random x nn => byteWord 0xc x nn
  | draw x y n => nibbleWord 0xd x y n
  | skip (.keyDown x) => byteWord 0xe x 0x9e
  | skip (.keyUp x) => byteWord 0xe x 0xa1
  | getDelay x => byteWord 0xf x 0x07
  | waitKey x => byteWord 0xf x 0x0a
  | setDelay x => byteWord 0xf x 0x15
  | setSound x => byteWord 0xf x 0x18
  | addIndex x => byteWord 0xf x 0x1e
  | loadGlyph x => byteWord 0xf x 0x29
  | storeDecimal x => byteWord 0xf x 0x33
  | storeBlock x => byteWord 0xf x 0x55
  | loadBlock x => byteWord 0xf x 0x65

end Instruction

end ChipEight
