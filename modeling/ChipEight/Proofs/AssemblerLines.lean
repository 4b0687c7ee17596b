import ChipEight.Mnemonic
import ChipEight.Numeral
import ChipEight.Pieces
import Mathlib.Algebra.Group.Nat.Defs
import Mathlib.Data.List.Basic
import Mathlib.Tactic.Lemma

/-! The assembler line of an instruction read back. A line is cut at its blanks into a name and operands,
an operand is known by its first characters and by how many there are, and a name together with the kinds
of its operands belongs to one instruction only. So no two instructions have the same line. -/
namespace ChipEight

namespace Hex

/-- The number that hexadecimal digits stand for. -/
def value (digits : List Char) : Nat :=
  digits.foldl (fun n c => 16 * n + (digitValue? c).getD 0) 0

lemma value_concat (digits : List Char) {d : Nat} (hd : d < 16) :
    value (digits ++ [Nat.digitChar d]) = 16 * value digits + d := by
  rw [value, List.foldl_append, List.foldl_cons, List.foldl_nil, digitValue?_digitChar d hd,
    Option.getD_some, value]

lemma value_toDigits (n : Nat) : value (Nat.toDigits 16 n) = n := by
  induction n using Nat.strongRecOn with
  | _ n ih =>
    by_cases hn : n < 16
    · rw [Nat.toDigits_of_lt_base hn]
      exact (value_concat [] hn).trans (by rw [value, List.foldl_nil, Nat.mul_zero, Nat.zero_add])
    · rw [Nat.toDigits_of_base_le (by decide) (Nat.le_of_not_lt hn),
        value_concat _ (Nat.mod_lt n (by decide)), ih (n / 16) (by omega)]
      omega

lemma value_replicate_append (k : Nat) (digits : List Char) :
    value (List.replicate k '0' ++ digits) = value digits := by
  induction k with
  | zero => rfl
  | succ k ih => exact ih

lemma toList_bare (width n : Nat) : (bare width n).toList =
    List.replicate (width - (Nat.toDigits 16 n).length) '0' ++ Nat.toDigits 16 n := by
  rw [bare, String.toList_ofList, List.leftpad]

lemma value_bare (width n : Nat) : value (bare width n).toList = n := by
  rw [toList_bare, value_replicate_append, value_toDigits]

lemma length_bare {width n : Nat} (hwidth : 0 < width) (hn : n < 16 ^ width) :
    (bare width n).toList.length = width := by
  have hlength := (Nat.length_toDigits_le_iff (by decide) hwidth).2 hn
  rw [toList_bare, List.length_append, List.length_replicate]
  omega

lemma exists_digit_of_mem_toDigits {n : Nat} {c : Char} (h : c ∈ Nat.toDigits 16 n) :
    ∃ d < 16, c = Nat.digitChar d := by
  induction n using Nat.strongRecOn with
  | _ n ih =>
    by_cases hn : n < 16
    · rw [Nat.toDigits_of_lt_base hn, List.mem_singleton] at h
      exact ⟨n, hn, h⟩
    · rw [Nat.toDigits_of_base_le (by decide) (Nat.le_of_not_lt hn), List.mem_append,
        List.mem_singleton] at h
      cases h with
      | inl h => exact ih (n / 16) (by omega) h
      | inr h => exact ⟨n % 16, Nat.mod_lt n (by decide), h⟩

lemma exists_digit_of_mem_bare {width n : Nat} {c : Char} (h : c ∈ (bare width n).toList) :
    ∃ d < 16, c = Nat.digitChar d := by
  rw [toList_bare, List.mem_append] at h
  cases h with
  | inl h => exact ⟨0, by decide, List.eq_of_mem_replicate h⟩
  | inr h => exact exists_digit_of_mem_toDigits h

end Hex

namespace Operand

/-- A number as an address, if it has twelve bits. -/
def ofAddress? (n : Nat) : Option Operand := if h : n < 4096 then some (address ⟨n, h⟩) else none

/-- The operand that a text stands for. -/
def read? : List Char → Option Operand
  | ['V', d] => (Hex.digitValue? d.toLower).map fun n => register (Fin.ofNat 16 n)
  | ['0', 'x', a, b] => some (byte (UInt8.ofNat (Hex.value [a, b])))
  | ['0', 'x', a, b, c] => ofAddress? (Hex.value [a, b, c])
  | ['I'] => some index
  | ['[', 'I', ']'] => some indexed
  | ['D', 'T'] => some delay
  | ['S', 'T'] => some sound
  | ['K'] => some key
  | ['F'] => some glyph
  | ['B'] => some decimal
  | digits => (readNumeral? 16 digits).map fun n => height (Fin.ofNat 16 n)

lemma read?_padded_two (nn : UInt8) : read? (Hex.padded 2 nn.toNat).toList = some (byte nn) := by
  have hlength := Hex.length_bare (by decide) (show nn.toNat < 16 ^ 2 from nn.toNat_lt)
  have hvalue := Hex.value_bare 2 nn.toNat
  rw [Hex.padded, String.toList_append]
  obtain ⟨a, b, hdigits⟩ := List.length_eq_two.1 hlength
  rw [hdigits] at hvalue ⊢
  have hread : read? ['0', 'x', a, b] = some (byte (UInt8.ofNat (Hex.value [a, b]))) := rfl
  rw [hvalue, UInt8.ofNat_toNat] at hread
  exact hread

lemma read?_padded_three (nnn : Address) :
    read? (Hex.padded 3 nnn.val).toList = some (address nnn) := by
  have hlength := Hex.length_bare (by decide) (show nnn.val < 16 ^ 3 from nnn.isLt)
  have hvalue := Hex.value_bare 3 nnn.val
  rw [Hex.padded, String.toList_append]
  obtain ⟨a, b, c, hdigits⟩ := List.length_eq_three.1 hlength
  rw [hdigits] at hvalue ⊢
  have hread : read? ['0', 'x', a, b, c] = ofAddress? (Hex.value [a, b, c]) := rfl
  rw [hvalue] at hread
  exact hread.trans (dif_pos nnn.isLt)

theorem read?_text (o : Operand) : read? o.text.toList = some o := by
  cases o with
  | register x => revert x; decide
  | byte nn => exact read?_padded_two nn
  | address nnn => exact read?_padded_three nnn
  | height n => revert n; decide
  | index | indexed | delay | sound | key | glyph | decimal => decide

lemma not_mem_padded {c : Char} (hx : c ∉ ['0', 'x']) (hdigit : ∀ d < 16, Nat.digitChar d ≠ c)
    (width n : Nat) : c ∉ (Hex.padded width n).toList := by
  rw [Hex.padded, String.toList_append, List.mem_append, not_or]
  refine ⟨hx, ?_⟩
  intro hc
  obtain ⟨d, hd, rfl⟩ := Hex.exists_digit_of_mem_bare hc
  exact hdigit d hd rfl

lemma separators_not_mem_padded (width n : Nat) :
    ' ' ∉ (Hex.padded width n).toList ∧ ',' ∉ (Hex.padded width n).toList :=
  ⟨not_mem_padded (by decide) (by decide) width n, not_mem_padded (by decide) (by decide) width n⟩

/-- What stands between operands stands in none of them. -/
lemma separators_not_mem_text (o : Operand) : ' ' ∉ o.text.toList ∧ ',' ∉ o.text.toList := by
  cases o with
  | register x => revert x; decide
  | byte nn => exact separators_not_mem_padded 2 nn.toNat
  | address nnn => exact separators_not_mem_padded 3 nnn.val
  | height n => revert n; decide
  | index | indexed | delay | sound | key | glyph | decimal => decide

/-- A piece of a line may have a comma at its end. -/
def ofPiece? (piece : List Char) : Option Operand := read? (piece.filter (· ≠ ','))

lemma filter_text (o : Operand) : o.text.toList.filter (· ≠ ',') = o.text.toList := by
  rw [List.filter_eq_self]
  intro c hc
  apply decide_eq_true
  rintro rfl
  exact (separators_not_mem_text o).2 hc

lemma ofPiece?_text (o : Operand) : ofPiece? o.text.toList = some o := by
  rw [ofPiece?, filter_text, read?_text]

lemma ofPiece?_text_comma (o : Operand) : ofPiece? (o.text.toList ++ [',']) = some o := by
  rw [ofPiece?, List.filter_append, filter_text]
  exact (congrArg read? (List.append_nil _)).trans (read?_text o)

end Operand

lemma piecesBetween_of_not_mem {separator : Char} {piece : List Char} (h : separator ∉ piece) :
    piecesBetween separator piece = [piece] := by
  induction piece with
  | nil => rfl
  | cons c cs ih =>
    rw [List.mem_cons, not_or] at h
    rw [piecesBetween, if_neg (Ne.symm h.1), ih h.2]

lemma piecesBetween_append_cons {separator : Char} {piece : List Char} (h : separator ∉ piece)
    (rest : List Char) :
    piecesBetween separator (piece ++ separator :: rest) = piece :: piecesBetween separator rest := by
  induction piece with
  | nil => rw [List.nil_append, piecesBetween, if_pos rfl]
  | cons c cs ih =>
    rw [List.mem_cons, not_or] at h
    rw [List.cons_append, piecesBetween, if_neg (Ne.symm h.1), ih h.2]

namespace Mnemonic

/-- The name and the operands in a line, each but the first behind a blank. -/
def read? (line : String) : Option Mnemonic :=
  match piecesBetween ' ' line.toList with
  | [] => none
  | name :: pieces => (pieces.mapM Operand.ofPiece?).map fun operands => ⟨String.ofList name, operands⟩

lemma mapM_pieces_joined {os : List Operand} (hos : os ≠ []) :
    (piecesBetween ' ' (joined os).toList).mapM Operand.ofPiece? = some os := by
  induction os with
  | nil => exact absurd rfl hos
  | cons o os ih =>
    have hblank := o.separators_not_mem_text.1
    cases os with
    | nil =>
      rw [joined, piecesBetween_of_not_mem hblank, List.mapM_cons, Operand.ofPiece?_text]
      rfl
    | cons p os =>
      have hjoined : (joined (o :: p :: os)).toList =
          (o.text.toList ++ [',']) ++ ' ' :: (joined (p :: os)).toList := by
        have hcons : joined (o :: p :: os) = o.text ++ ", " ++ joined (p :: os) := rfl
        rw [hcons, String.toList_append, String.toList_append, List.append_assoc, List.append_assoc]
        rfl
      have hpiece : ' ' ∉ o.text.toList ++ [','] := by
        rw [List.mem_append, not_or]
        exact ⟨hblank, by decide⟩
      rw [hjoined, piecesBetween_append_cons hpiece, List.mapM_cons, Operand.ofPiece?_text_comma,
        ih (List.cons_ne_nil p os)]
      rfl

theorem read?_text {m : Mnemonic} (hname : ' ' ∉ m.name.toList) : read? m.text = some m := by
  obtain ⟨name, operands⟩ := m
  cases operands with
  | nil =>
    rw [read?, text, piecesBetween_of_not_mem hname]
    simp
  | cons o os =>
    have htext : (text ⟨name, o :: os⟩).toList = name.toList ++ ' ' :: (joined (o :: os)).toList := by
      rw [text, String.toList_append, String.toList_append, List.append_assoc]
      rfl
    rw [read?, htext, piecesBetween_append_cons hname]
    simp [mapM_pieces_joined]

/-- The instruction of a name and operands. -/
def instruction? (m : Mnemonic) : Option Instruction :=
  match m.name, m.operands with
  | "CLS", [] => some .clearScreen
  | "RET", [] => some .ret
  | "JP", [.address a] => some (.jump a)
  | "CALL", [.address a] => some (.call a)
  | "JP", [.register 0, .address a] => some (.jumpOffset a)
  | "SE", [.register x, .byte nn] => some (.skip (.isByte x nn))
  | "SNE", [.register x, .byte nn] => some (.skip (.isNotByte x nn))
  | "SE", [.register x, .register y] => some (.skip (.same x y))
  | "SNE", [.register x, .register y] => some (.skip (.differ x y))
  | "SKP", [.register x] => some (.skip (.keyDown x))
  | "SKNP", [.register x] => some (.skip (.keyUp x))
  | "LD", [.register x, .byte nn] => some (.loadByte x nn)
  | "ADD", [.register x, .byte nn] => some (.addByte x nn)
  | "RND", [.register x, .byte nn] => some (.random x nn)
  | "LD", [.register x, .register y] => some (.combine .move x y)
  | "OR", [.register x, .register y] => some (.combine .or x y)
  | "AND", [.register x, .register y] => some (.combine .and x y)
  | "XOR", [.register x, .register y] => some (.combine .xor x y)
  | "ADD", [.register x, .register y] => some (.combine .add x y)
  | "SUB", [.register x, .register y] => some (.combine .sub x y)
  | "SHR", [.register x, .register y] => some (.combine .shiftRight x y)
  | "SUBN", [.register x, .register y] => some (.combine .subReverse x y)
  | "SHL", [.register x, .register y] => some (.combine .shiftLeft x y)
  | "DRW", [.register x, .register y, .height n] => some (.draw x y n)
  | "LD", [.index, .address a] => some (.loadIndex a)
  | "ADD", [.index, .register x] => some (.addIndex x)
  | "LD", [.glyph, .register x] => some (.loadGlyph x)
  | "LD", [.register x, .key] => some (.waitKey x)
  | "LD", [.register x, .delay] => some (.getDelay x)
  | "LD", [.delay, .register x] => some (.setDelay x)
  | "LD", [.sound, .register x] => some (.setSound x)
  | "LD", [.decimal, .register x] => some (.storeDecimal x)
  | "LD", [.indexed, .register x] => some (.storeBlock x)
  | "LD", [.register x, .indexed] => some (.loadBlock x)
  | _, _ => none

end Mnemonic

namespace Instruction

theorem instruction?_mnemonic (i : Instruction) : i.mnemonic.instruction? = some i := by
  cases i with
  | skip c => cases c <;> rfl
  | combine op x y => cases op <;> rfl
  | _ => rfl

lemma blank_not_mem_name (i : Instruction) : ' ' ∉ i.mnemonic.name.toList := by
  cases i with
  | skip c => cases c <;> simp [mnemonic, Condition.mnemonic]
  | combine op x y => cases op <;> simp [mnemonic, BinaryOp.name]
  | _ => simp [mnemonic]

lemma mnemonic_text_injective {i j : Instruction} (h : i.mnemonic.text = j.mnemonic.text) : i = j := by
  have hi := Mnemonic.read?_text (blank_not_mem_name i)
  rw [h, Mnemonic.read?_text (blank_not_mem_name j), Option.some.injEq] at hi
  have hj := instruction?_mnemonic j
  rw [hi, instruction?_mnemonic] at hj
  exact Option.some.inj hj

example : [combine .move 15 11, loadGlyph 11, storeDecimal 15].map (·.mnemonic.text) =
    ["LD VF, VB", "LD F, VB", "LD B, VF"] := by decide

end Instruction

end ChipEight
