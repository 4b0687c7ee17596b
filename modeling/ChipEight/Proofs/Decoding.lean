import ChipEight.Instruction
import Mathlib.Algebra.Group.Nat.Defs
import Mathlib.Tactic.Lemma
import Mathlib.Tactic.SplitIfs

/-! The instruction table read both ways. Each of the three shapes of a word gives its fields back, so
that decoding an encoded instruction returns it, and a word that decodes is the word of what it decodes
to: `decode? w = some i` exactly when `encode i = w`. A word of no instruction is reported as it is, with
the place that it was found at. -/
namespace ChipEight.Fields
open Instruction

/-- The fields of a word as masks cut them out. -/
structure CutFrom (f : Fields) (w : UInt16) : Prop where
  family : f.family.val = ((w &&& 0xf000) >>> 12).toNat
  x : f.x.val = ((w &&& 0x0f00) >>> 8).toNat
  y : f.y.val = ((w &&& 0x00f0) >>> 4).toNat
  n : f.n.val = (w &&& 0x000f).toNat
  nn : f.nn.toNat = (w &&& 0x00ff).toNat
  nnn : f.nnn.val = (w &&& 0x0fff).toNat

/-- A mask that has four bits left when it is moved down with the word. -/
lemma toNat_cut (w : UInt16) {mask shift : UInt16} {k : Nat} (hshift : shift.toNat % 16 = k)
    (hmask : mask.toNat >>> k = 15) : ((w &&& mask) >>> shift).toNat = w.toNat / 2 ^ k % 16 := by
  rw [UInt16.toNat_shiftRight, UInt16.toNat_and, hshift, Nat.shiftRight_and_distrib, hmask,
    Nat.shiftRight_eq_div_pow]
  exact Nat.and_two_pow_sub_one_eq_mod _ 4

lemma cutFrom_ofWord (w : UInt16) : (ofWord w).CutFrom w where
  family := (toNat_cut w (k := 12) rfl rfl).symm
  x := (toNat_cut w (k := 8) rfl rfl).symm
  y := (toNat_cut w (k := 4) rfl rfl).symm
  n := (Nat.and_two_pow_sub_one_eq_mod w.toNat 4).symm
  nn := (Nat.and_two_pow_sub_one_eq_mod w.toNat 8).symm
  nnn := (Nat.and_two_pow_sub_one_eq_mod w.toNat 12).symm

lemma ofWord_addressWord (f : Fin 16) (a : Address) :
    (ofWord (addressWord f a)).family = f ∧ (ofWord (addressWord f a)).nnn = a := by
  have hf := f.isLt
  have ha := a.isLt
  constructor
  · ext
    simp [ofWord, addressWord]
    omega
  · ext
    simp [ofWord, addressWord]

lemma ofWord_byteWord (f x : Fin 16) (nn : UInt8) :
    (ofWord (byteWord f x nn)).family = f ∧ (ofWord (byteWord f x nn)).x = x ∧
      (ofWord (byteWord f x nn)).nn = nn := by
  have hf := f.isLt
  have hx := x.isLt
  have hn := nn.toNat_lt
  refine ⟨?_, ?_, ?_⟩
  · ext; simp [ofWord, byteWord]; omega
  · ext; simp [ofWord, byteWord]; omega
  · apply UInt8.toNat_inj.1
    simp [ofWord, byteWord]; omega

lemma ofWord_nibbleWord (f x y n : Fin 16) :
    (ofWord (nibbleWord f x y n)).family = f ∧ (ofWord (nibbleWord f x y n)).x = x ∧
      (ofWord (nibbleWord f x y n)).y = y ∧ (ofWord (nibbleWord f x y n)).n = n := by
  have hf := f.isLt
  have hx := x.isLt
  have hy := y.isLt
  have hn := n.isLt
  refine ⟨?_, ?_, ?_, ?_⟩ <;> ext <;> simp [ofWord, nibbleWord] <;> omega

lemma addressWord_ofWord {w : UInt16} {f : Fin 16} (h : (ofWord w).family = f) :
    addressWord f (ofWord w).nnn = w := by
  have hw := w.toNat_lt
  subst f
  apply UInt16.toNat_inj.1
  simp [ofWord, addressWord]; omega

lemma byteWord_ofWord {w : UInt16} {f : Fin 16} (h : (ofWord w).family = f) :
    byteWord f (ofWord w).x (ofWord w).nn = w := by
  have hw := w.toNat_lt
  subst f
  apply UInt16.toNat_inj.1
  simp [ofWord, byteWord]; omega

lemma nibbleWord_ofWord {w : UInt16} {f : Fin 16} (h : (ofWord w).family = f) :
    nibbleWord f (ofWord w).x (ofWord w).y (ofWord w).n = w := by
  have hw := w.toNat_lt
  subst f
  apply UInt16.toNat_inj.1
  simp [ofWord, nibbleWord]; omega

end ChipEight.Fields

namespace ChipEight.Instruction
open Fields

theorem decode?_encode (i : Instruction) : decode? (encode i) = some i := by
  cases i with
  | clearScreen => rfl
  | ret => rfl
  | skip c =>
    cases c <;> simp [encode, decode?, ofFields?, ofWord_byteWord, ofWord_nibbleWord]
  | combine op x y =>
    have h := (BinaryOp.ofNibble?_eq_some_iff op.nibble op).2 rfl
    simp [encode, decode?, ofFields?, ofWord_nibbleWord, h]
  | jump _ | call _ | loadIndex _ | jumpOffset _ =>
    simp [encode, decode?, ofFields?, ofWord_addressWord]
  | draw _ _ _ => simp [encode, decode?, ofFields?, ofWord_nibbleWord]
  | _ => simp [encode, decode?, ofFields?, ofDeviceByte?, ofWord_byteWord]

lemma encode_of_ofDeviceByte? {x : Register} {nn : UInt8} {i : Instruction}
    (h : ofDeviceByte? x nn = some i) : encode i = byteWord 0xf x nn := by
  unfold ofDeviceByte? at h
  split_ifs at h <;> cases h <;> simp only [encode, *]

lemma encode_of_decode? {w : UInt16} {i : Instruction} (h : decode? w = some i) :
    encode i = w := by
  unfold decode? ofFields? at h
  split at h
  -- families 0, 5, 9 and 14 are the ones that a further field has to settle
  case h_1 hf =>
    have hw := addressWord_ofWord hf
    split_ifs at h with h0 h1
    · cases h
      rw [← hw, h0]; rfl
    · cases h
      rw [← hw, h1]; rfl
  case h_2 hf => cases h; exact addressWord_ofWord hf
  case h_3 hf => cases h; exact addressWord_ofWord hf
  case h_4 hf => cases h; exact byteWord_ofWord hf
  case h_5 hf => cases h; exact byteWord_ofWord hf
  case h_6 hf =>
    have hw := nibbleWord_ofWord hf
    split_ifs at h with h0
    cases h
    rwa [h0] at hw
  case h_7 hf => cases h; exact byteWord_ofWord hf
  case h_8 hf => cases h; exact byteWord_ofWord hf
  case h_9 hf =>
    obtain ⟨op, hop, rfl⟩ := Option.map_eq_some_iff.1 h
    rw [encode, (BinaryOp.ofNibble?_eq_some_iff _ _).1 hop]
    exact nibbleWord_ofWord hf
  case h_10 hf =>
    have hw := nibbleWord_ofWord hf
    split_ifs at h with h0
    cases h
    rwa [h0] at hw
  case h_11 hf => cases h; exact addressWord_ofWord hf
  case h_12 hf => cases h; exact addressWord_ofWord hf
  case h_13 hf => cases h; exact byteWord_ofWord hf
  case h_14 hf => cases h; exact nibbleWord_ofWord hf
  case h_15 hf =>
    have hw := byteWord_ofWord hf
    split_ifs at h with h0 h1
    · cases h
      rwa [h0] at hw
    · cases h
      rwa [h1] at hw
  case h_16 =>
    have hf : (ofWord w).family = 0xf := by grind
    rw [encode_of_ofDeviceByte? h]
    exact byteWord_ofWord hf

theorem decode?_eq_some_iff_encode (w : UInt16) (i : Instruction) :
    decode? w = some i ↔ encode i = w :=
  ⟨encode_of_decode?, fun h => h ▸ decode?_encode i⟩

theorem decode?_eq_none_iff_encode (w : UInt16) : decode? w = none ↔ ∀ i, encode i ≠ w := by
  simp only [Option.eq_none_iff_forall_ne_some, ne_eq, decode?_eq_some_iff_encode]

lemma encode_injective {i j : Instruction} (h : encode i = encode j) : i = j := by
  have hd := decode?_encode i
  rw [h, decode?_encode] at hd
  exact (Option.some.inj hd).symm

lemma decode_eq_ok_iff (w pc : UInt16) (i : Instruction) : decode w pc = .ok i ↔ encode i = w := by
  rw [← decode?_eq_some_iff_encode, decode]
  cases decode? w <;> simp

lemma decode_eq_error_iff (w pc : UInt16) (f : Failure) :
    decode w pc = .error f ↔ f = .unknownOpcode w pc ∧ ∀ i, encode i ≠ w := by
  rw [← decode?_eq_none_iff_encode, decode]
  cases decode? w <;> simp [eq_comm]

/-- A word decodes to the instruction whose word it is and to no other, and a word of no instruction is
reported with its place. So the table can be read in both directions. -/
theorem decode_accepts_exactly_encodings (w pc : UInt16) :
    (Fields.ofWord w).CutFrom w ∧
      (∀ i, decode w pc = .ok i ↔ encode i = w) ∧
      (∀ f, decode w pc = .error f ↔ f = .unknownOpcode w pc ∧ ∀ i, encode i ≠ w) ∧
      (∀ i, decode (encode i) pc = .ok i) ∧
      ∀ i j, encode i = encode j ↔ i = j := by
  refine ⟨Fields.cutFrom_ofWord w, decode_eq_ok_iff w pc, decode_eq_error_iff w pc, ?_, ?_⟩
  · intro i
    exact (decode_eq_ok_iff (encode i) pc i).2 rfl
  · intro i j
    exact ⟨encode_injective, congrArg encode⟩

end ChipEight.Instruction
