/-! Characters as bytes in UTF-8, for a reader who gets the bytes one by one. The bytes of a character are
known to be unfinished until the last of them is there. -/
namespace ChipEight.Utf8

def encode (text : List Char) : List UInt8 := text.flatMap String.utf8EncodeChar

def char? (bytes : List UInt8) : Option Char := bytes.toByteArray.utf8DecodeChar? 0

/-- How many bytes a character has whose first byte this is. -/
def width? (first : UInt8) : Option Nat :=
  if first < 0x80 then some 1
  else if first < 0xc0 then none
  else if first < 0xe0 then some 2
  else if first < 0xf0 then some 3
  else if first < 0xf8 then some 4
  else none

def continues (b : UInt8) : Bool := 0x80 ≤ b && b < 0xc0

/-- Whether these are as the first bytes of a character are, with more of them to come. -/
def isUnfinished : List UInt8 → Bool
  | [] => true
  | first :: rest => (width? first).any (rest.length + 1 < ·) && rest.all continues

theorem char?_utf8EncodeChar (c : Char) : char? (String.utf8EncodeChar c) = some c := by
  simpa [char?] using ByteArray.utf8DecodeChar?_utf8EncodeChar_append (b := ByteArray.empty) (c := c)

theorem utf8EncodeChar_injective {c d : Char} (h : String.utf8EncodeChar c = String.utf8EncodeChar d) :
    c = d :=
  Option.some.inj (by rw [← char?_utf8EncodeChar c, h, char?_utf8EncodeChar])

/-- No character is the start of another. -/
theorem char?_take (c : Char) {n : Nat} (h : n < c.utf8Size) :
    char? ((String.utf8EncodeChar c).take n) = none := by
  cases hd : char? ((String.utf8EncodeChar c).take n) with
  | none => rfl
  | some d =>
    have hle := ByteArray.le_size_of_utf8DecodeChar?_eq_some hd
    have hw := ByteArray.utf8DecodeChar?_append_eq_some hd ((String.utf8EncodeChar c).drop n).toByteArray
    rw [← List.toByteArray_append, List.take_append_drop] at hw
    have he : char? (String.utf8EncodeChar c) = some d := hw
    rw [char?_utf8EncodeChar] at he
    cases he
    simp at hle
    omega

theorem width?_one : ∀ n < 128, width? (UInt8.ofNat n) = some 1 := by decide
theorem width?_two : ∀ n < 32, width? (UInt8.ofNat (n + 0xc0)) = some 2 := by decide
theorem width?_three : ∀ n < 16, width? (UInt8.ofNat (n + 0xe0)) = some 3 := by decide
theorem width?_four : ∀ n < 8, width? (UInt8.ofNat (n + 0xf0)) = some 4 := by decide
theorem continues_of_lt : ∀ n < 64, continues (UInt8.ofNat (n + 0x80)) = true := by decide

/-- The first byte of a character tells its width, and the others go on with it. -/
theorem exists_utf8EncodeChar (c : Char) : ∃ first rest, String.utf8EncodeChar c = first :: rest ∧
    width? first = some (rest.length + 1) ∧ rest.all continues := by
  have hc (k : Nat) : continues (UInt8.ofNat (k % 64 + 0x80)) = true :=
    continues_of_lt _ (Nat.mod_lt k (by decide))
  unfold String.utf8EncodeChar
  dsimp only
  split
  · next h => exact ⟨_, _, rfl, width?_one _ (by omega), rfl⟩
  · split
    · exact ⟨_, _, rfl, width?_two _ (Nat.mod_lt _ (by decide)), by
        simp only [List.all_cons, hc, List.all_nil, Bool.and_true]⟩
    · split
      · exact ⟨_, _, rfl, width?_three _ (Nat.mod_lt _ (by decide)), by
          simp only [List.all_cons, hc, List.all_nil, Bool.and_true]⟩
      · exact ⟨_, _, rfl, width?_four _ (Nat.mod_lt _ (by decide)), by
          simp only [List.all_cons, hc, List.all_nil, Bool.and_true]⟩

theorem isUnfinished_take (c : Char) {n : Nat} (h : n < c.utf8Size) :
    isUnfinished ((String.utf8EncodeChar c).take n) = true := by
  obtain ⟨first, rest, he, hw, hr⟩ := exists_utf8EncodeChar c
  rw [← String.length_utf8EncodeChar, he] at h
  rw [he]
  cases n with
  | zero => rfl
  | succ n =>
    simp only [List.length_cons, List.all_eq_true] at h hr
    simp only [List.take_succ_cons, isUnfinished, hw, Option.any_some, List.length_take,
      Bool.and_eq_true, decide_eq_true_eq, List.all_eq_true]
    exact ⟨by omega, fun b hb => hr b (List.mem_of_mem_take hb)⟩

end ChipEight.Utf8
