import ChipEight.Failure

/-! The 4096 bytes that a program sees: the digit font at 0x050, the program from 0x200, zeroes
elsewhere. A range that leaves the 4096 bytes is refused before anything is read or written. -/
namespace ChipEight

/-- Sixteen glyphs of five rows, four pixels wide. -/
def font : List UInt8 := [
  0xf0, 0x90, 0x90, 0x90, 0xf0,
  0x20, 0x60, 0x20, 0x20, 0x70,
  0xf0, 0x10, 0xf0, 0x80, 0xf0,
  0xf0, 0x10, 0xf0, 0x10, 0xf0,
  0x90, 0x90, 0xf0, 0x10, 0x10,
  0xf0, 0x80, 0xf0, 0x10, 0xf0,
  0xf0, 0x80, 0xf0, 0x90, 0xf0,
  0xf0, 0x10, 0x20, 0x40, 0x40,
  0xf0, 0x90, 0xf0, 0x90, 0xf0,
  0xf0, 0x90, 0xf0, 0x10, 0xf0,
  0xf0, 0x90, 0xf0, 0x90, 0x90,
  0xe0, 0x90, 0xe0, 0x90, 0xe0,
  0xf0, 0x80, 0x80, 0x80, 0xf0,
  0xe0, 0x90, 0x90, 0x90, 0xe0,
  0xf0, 0x80, 0xf0, 0x80, 0xf0,
  0xf0, 0x80, 0xf0, 0x80, 0x80]

structure Memory where
  bytes : Vector UInt8 4096
  programBase : UInt16 := 0x200
  fontBase : UInt16 := 0x050
  deriving DecidableEq

namespace Memory

/-- Puts `data` in place from `start` on; what would fall outside is dropped. -/
def put (bytes : Vector UInt8 4096) (start : Nat) : List UInt8 → Vector UInt8 4096
  | [] => bytes
  | b :: data => put (bytes.setIfInBounds start b) (start + 1) data

/-- Zeroes and the font, with both base addresses kept. -/
def reset (m : Memory) : Memory :=
  { m with bytes := put (Vector.replicate 4096 0) m.fontBase.toNat font }

def fresh : Memory := reset ⟨Vector.replicate 4096 0, 0x200, 0x050⟩

/-- Bytes outside memory read as zero; `read` never reaches one. -/
def byte (m : Memory) (address : Nat) : UInt8 := m.bytes[address]?.getD 0

/-- The first byte past the end is the one a refused range reports. -/
def check (address : UInt16) (length : Nat) : Except Failure Unit :=
  if address.toNat + length ≤ 4096 then .ok ()
  else .error (.outOfBounds (max address.toNat 4096))

def read (m : Memory) (address : UInt16) (length : Nat) : Except Failure (List UInt8) := do
  check address length
  return (List.range' address.toNat length).map m.byte

def write (m : Memory) (address : UInt16) (data : List UInt8) : Except Failure Memory := do
  check address data.length
  return { m with bytes := put m.bytes address.toNat data }

/-- The range is checked before the bytes for it are made. -/
def fill (m : Memory) (address : UInt16) (length : Nat) (b : UInt8) : Except Failure Memory := do
  check address length
  m.write address (List.replicate length b)

/-- Two bytes, the high one first. -/
def word (m : Memory) (address : UInt16) : Except Failure UInt16 := do
  check address 2
  return UInt16.ofNat ((m.byte address.toNat).toNat * 256 + (m.byte (address.toNat + 1)).toNat)

/-- The size of a program is checked before its place. -/
def loadProgram (m : Memory) (program : List UInt8) : Except Failure Memory :=
  if program.length ≤ 3584 then m.write m.programBase program
  else .error (.romTooLarge program.length 3584)

/-- A value above 15 has an address too, past the font. -/
def glyphAddress (m : Memory) (digit : UInt8) : UInt16 :=
  m.fontBase + digit.toUInt16 * 5

theorem length_font : font.length = 80 := rfl

theorem byte_of_lt (m : Memory) {a : Nat} (h : a < 4096) : m.byte a = m.bytes[a] := by
  simp [byte, h]

theorem getElem_put (bytes : Vector UInt8 4096) (start : Nat) (data : List UInt8) {i : Nat}
    (h : i < 4096) : (put bytes start data)[i] =
      if start ≤ i then data[i - start]?.getD bytes[i] else bytes[i] := by
  induction data generalizing bytes start with
  | nil => simp [put]
  | cons b data ih =>
    rw [put, ih]
    rcases Nat.lt_trichotomy start i with hi | rfl | hi
    · have : i - start = i - (start + 1) + 1 := by omega
      simp [Nat.le_of_lt hi, Nat.succ_le_of_lt hi, this, Nat.ne_of_lt hi]
    · rw [if_neg (Nat.not_succ_le_self start), if_pos (Nat.le_refl start)]
      simp
    · simp [Nat.not_le_of_lt hi, Nat.ne_of_gt hi, Nat.not_le_of_lt (Nat.lt_succ_of_lt hi)]

theorem check_eq_ok_iff (address : UInt16) (length : Nat) :
    check address length = .ok () ↔ address.toNat + length ≤ 4096 := by
  unfold check; split <;> simp [*]

theorem check_eq_error_iff (address : UInt16) (length : Nat) (f : Failure) :
    check address length = .error f ↔
      4096 < address.toNat + length ∧ f = .outOfBounds (max address.toNat 4096) := by
  unfold check
  split
  case isTrue h => simp [Nat.not_lt.2 h]
  case isFalse h => simp [Nat.lt_of_not_le h, eq_comm]

theorem write_of_le (m : Memory) {address : UInt16} {data : List UInt8}
    (h : address.toNat + data.length ≤ 4096) :
    m.write address data = .ok { m with bytes := put m.bytes address.toNat data } := by
  simp [write, check, h, bind, Except.bind, pure, Except.pure]

theorem read_of_le (m : Memory) {address : UInt16} {length : Nat}
    (h : address.toNat + length ≤ 4096) :
    m.read address length = .ok ((List.range' address.toNat length).map m.byte) := by
  simp [read, check, h, bind, Except.bind, pure, Except.pure]

theorem reset_reset (m : Memory) : m.reset.reset = m.reset := by simp only [reset]

end Memory

end ChipEight
