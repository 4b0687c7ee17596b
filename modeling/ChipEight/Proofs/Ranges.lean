import ChipEight.ByteReader
import Mathlib.Tactic.Lemma

/-! Ranges of memory: an access succeeds exactly when its range ends inside the 4096 bytes, it reports
the first byte past them otherwise, and a program that is small enough always fits in its place. -/
namespace ChipEight

lemma map_eq_ok_iff {ε α β : Type} (f : α → β) (x : Except ε α) (b : β) :
    x.map f = .ok b ↔ ∃ a, x = .ok a ∧ f a = b := by
  cases x <;> simp [Except.map]

lemma map_eq_error_iff {ε α β : Type} (f : α → β) (x : Except ε α) (e : ε) :
    x.map f = .error e ↔ x = .error e := by
  cases x <;> simp [Except.map]

namespace Memory

/-- Two bytes as one number, the high one first. -/
def wordAt (m : Memory) (address : Nat) : UInt16 :=
  UInt16.ofNat ((m.byte address).toNat * 256 + (m.byte (address + 1)).toNat)

lemma check_of_gt {address : UInt16} {length : Nat} (h : 4096 < address.toNat + length) :
    check address length = .error (.outOfBounds (max address.toNat 4096)) := by
  rw [check_eq_error_iff]
  exact ⟨h, rfl⟩

lemma read_of_gt (m : Memory) {address : UInt16} {length : Nat}
    (h : 4096 < address.toNat + length) :
    m.read address length = .error (.outOfBounds (max address.toNat 4096)) := by
  simp only [read, check_of_gt h, bind, Except.bind]

lemma write_of_gt (m : Memory) {address : UInt16} {data : List UInt8}
    (h : 4096 < address.toNat + data.length) :
    m.write address data = .error (.outOfBounds (max address.toNat 4096)) := by
  simp only [write, check_of_gt h, bind, Except.bind]

lemma word_of_gt (m : Memory) {address : UInt16} (h : 4096 < address.toNat + 2) :
    m.word address = .error (.outOfBounds (max address.toNat 4096)) := by
  simp only [word, check_of_gt h, bind, Except.bind]

lemma word_of_le (m : Memory) {address : UInt16} (h : address.toNat + 2 ≤ 4096) :
    m.word address = .ok (m.wordAt address.toNat) := by
  simp only [word, (check_eq_ok_iff address 2).2 h, bind, Except.bind, pure, Except.pure, wordAt]

lemma word_eq_ok_iff (m : Memory) (address w : UInt16) :
    m.word address = .ok w ↔ address.toNat + 2 ≤ 4096 ∧ w = m.wordAt address.toNat := by
  by_cases h : address.toNat + 2 ≤ 4096
  · simp [word_of_le m h, h, eq_comm]
  · simp [word_of_gt m (Nat.lt_of_not_le h), h]

lemma write_eq_ok_iff (m m' : Memory) (address : UInt16) (data : List UInt8) :
    m.write address data = .ok m' ↔ address.toNat + data.length ≤ 4096 ∧
      m' = { m with bytes := put m.bytes address.toNat data } := by
  by_cases h : address.toNat + data.length ≤ 4096
  · simp [write_of_le m h, h, eq_comm]
  · simp [write_of_gt m (Nat.lt_of_not_le h), h]

lemma read_eq_error_iff (m : Memory) (address : UInt16) (length : Nat) (f : Failure) :
    m.read address length = .error f ↔
      f = .outOfBounds (max address.toNat 4096) ∧ 4096 < address.toNat + length := by
  by_cases h : address.toNat + length ≤ 4096
  · simp [read_of_le m h, Nat.not_lt.2 h]
  · simp [read_of_gt m (Nat.lt_of_not_le h), Nat.lt_of_not_le h, eq_comm]

lemma write_eq_error_iff (m : Memory) (address : UInt16) (data : List UInt8) (f : Failure) :
    m.write address data = .error f ↔
      f = .outOfBounds (max address.toNat 4096) ∧ 4096 < address.toNat + data.length := by
  by_cases h : address.toNat + data.length ≤ 4096
  · simp [write_of_le m h, Nat.not_lt.2 h]
  · simp [write_of_gt m (Nat.lt_of_not_le h), Nat.lt_of_not_le h, eq_comm]

lemma loadProgram_eq_ok {m m' : Memory} {program : List UInt8}
    (h : m.loadProgram program = .ok m') :
    m' = { m with bytes := put m.bytes m.programBase.toNat program } := by
  unfold loadProgram at h
  split at h
  · exact ((write_eq_ok_iff _ _ _ _).1 h).2
  · cases h

lemma loadProgramFrom_eq_ok {m m' : Memory} {chunks : List Chunk}
    (h : m.loadProgramFrom chunks = .ok m') :
    ∃ program, Chunk.readToEnd chunks = .ok program ∧
      m' = { m with bytes := put m.bytes m.programBase.toNat program } := by
  cases hr : Chunk.readToEnd chunks with
  | error f => simp [loadProgramFrom, hr, bind, Except.bind] at h
  | ok program =>
    rw [loadProgramFrom_of_readToEnd m hr] at h
    exact ⟨program, rfl, loadProgram_eq_ok h⟩

end Memory

end ChipEight
