/-! Whole numbers as they are written with decimal digits. -/
namespace ChipEight

def withoutPlus : List Char → List Char
  | '+' :: rest => rest
  | text => text

/-- Decimal digits with an optional plus sign, if their number is below a bound. -/
def readNumeral? (bound : Nat) (text : List Char) : Option Nat :=
  let digits := withoutPlus text
  if digits.isEmpty || !digits.all Char.isDigit then none
  else
    let n := Nat.ofDigitChars 10 digits 0
    if n < bound then some n else none

theorem withoutPlus_of_digits {text : List Char} (h : text.all Char.isDigit) :
    withoutPlus text = text := by
  cases text with
  | nil => rfl
  | cons c cs =>
    have hc : c ≠ '+' := by rintro rfl; simp at h
    unfold withoutPlus
    split
    · next he => cases he; exact absurd rfl hc
    · rfl

theorem lt_of_readNumeral? {bound n : Nat} {text : List Char}
    (h : readNumeral? bound text = some n) : n < bound := by
  simp only [readNumeral?, Option.ite_none_left_eq_some] at h
  grind

/-- What is written for a number below the bound reads back. -/
theorem readNumeral?_toDigits {bound n : Nat} (h : n < bound) :
    readNumeral? bound (Nat.toDigits 10 n) = some n := by
  have hd : (Nat.toDigits 10 n).all Char.isDigit := by
    rw [List.all_eq_true]
    exact fun c hc => Nat.isDigit_of_mem_toDigits (by decide) (by decide) hc
  simp [readNumeral?, withoutPlus_of_digits hd, hd, Nat.toDigits_ne_nil, h]

end ChipEight
