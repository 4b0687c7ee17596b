/-! Numbers and bytes in hexadecimal. Digits are lower case; a number may carry `0x` and zeros up to
a least width. Reading back what `ofBytes` wrote gives the same bytes (`toBytes?_ofBytes`), and a byte or
a word as a number of full width is written as its bytes are (`bare_byte`, `bare_word`). -/
namespace ChipEight.Hex

/-- At least `width` digits, more where the number needs them. -/
def bare (width n : Nat) : String := String.ofList ((Nat.toDigits 16 n).leftpad width '0')

def padded (width n : Nat) : String := "0x" ++ bare width n

def plain (n : Nat) : String := padded 1 n

def upperDigit (d : Fin 16) : Char := (Nat.digitChar d.val).toUpper

def byteChars (b : UInt8) : List Char :=
  [Nat.digitChar (b.toNat / 16), Nat.digitChar (b.toNat % 16)]

def chars : List UInt8 → List Char
  | [] => []
  | b :: bs => byteChars b ++ chars bs

def ofBytes (bs : List UInt8) : String := String.ofList (chars bs)

/-- A word is written with its high byte first. -/
def ofWord (w : UInt16) : String := ofBytes [UInt8.ofNat (w.toNat / 256), UInt8.ofNat w.toNat]

def digitValue? (c : Char) : Option Nat :=
  if '0' ≤ c ∧ c ≤ '9' then some (c.toNat - 48)
  else if 'a' ≤ c ∧ c ≤ 'f' then some (c.toNat - 87)
  else none

def bytesOfChars? : List Char → Option (List UInt8)
  | [] => some []
  | [_] => none
  | a :: b :: r =>
    match digitValue? a, digitValue? b with
    | some x, some y => (bytesOfChars? r).map (UInt8.ofNat (16 * x + y) :: ·)
    | _, _ => none

def toBytes? (s : String) : Option (List UInt8) := bytesOfChars? s.toList

theorem digitValue?_digitChar : ∀ d < 16, digitValue? (Nat.digitChar d) = some d := by decide

theorem length_chars (bs : List UInt8) : (chars bs).length = 2 * bs.length := by
  induction bs with
  | nil => rfl
  | cons b bs ih => simp [chars, byteChars, ih]; omega

theorem bytesOfChars?_chars (bs : List UInt8) : bytesOfChars? (chars bs) = some bs := by
  induction bs with
  | nil => rfl
  | cons b bs ih =>
    have hb := b.toNat_lt
    have h : 16 * (b.toNat / 16) + b.toNat % 16 = b.toNat := by omega
    simp [chars, byteChars, bytesOfChars?, digitValue?_digitChar _ (show b.toNat / 16 < 16 by omega),
      digitValue?_digitChar _ (show b.toNat % 16 < 16 by omega), ih, h]

theorem toBytes?_ofBytes (bs : List UInt8) : toBytes? (ofBytes bs) = some bs := by
  simp [toBytes?, ofBytes, bytesOfChars?_chars]

theorem leftpad_toDigits_succ {width : Nat} (h : 0 < width) (n : Nat) :
    (Nat.toDigits 16 n).leftpad (width + 1) '0' =
      (Nat.toDigits 16 (n / 16)).leftpad width '0' ++ [Nat.digitChar (n % 16)] := by
  by_cases hn : n < 16
  · have hzeros : List.replicate (width - 1) '0' ++ ['0'] = List.replicate width '0' := by
      rw [← List.replicate_succ', Nat.sub_add_cancel h]
    rw [Nat.toDigits_of_lt_base hn, Nat.div_eq_of_lt hn, Nat.mod_eq_of_lt hn]
    exact congrArg (· ++ [Nat.digitChar n]) hzeros.symm
  · rw [Nat.toDigits_of_base_le (by decide) (Nat.le_of_not_lt hn), List.leftpad, List.leftpad,
      List.length_append, List.length_singleton, Nat.add_sub_add_right, List.append_assoc]

theorem leftpad_toDigits_of_lt {n : Nat} (h : n < 256) :
    (Nat.toDigits 16 n).leftpad 2 '0' = [Nat.digitChar (n / 16), Nat.digitChar (n % 16)] := by
  rw [leftpad_toDigits_succ (by decide), Nat.toDigits_of_lt_base (by omega)]
  rfl

theorem bare_byte (b : UInt8) : bare 2 b.toNat = ofBytes [b] := by
  rw [bare, leftpad_toDigits_of_lt b.toNat_lt]
  rfl

theorem bare_word (w : UInt16) : bare 4 w.toNat = ofWord w := by
  have hw := w.toNat_lt
  have hhigh : w.toNat / 16 / 16 / 16 = w.toNat / 256 % 256 / 16 := by omega
  have hthird : w.toNat / 16 % 16 = w.toNat % 256 / 16 := by omega
  have hlow : w.toNat % 16 = w.toNat % 256 % 16 := by omega
  rw [bare, leftpad_toDigits_succ (by decide), leftpad_toDigits_succ (by decide),
    leftpad_toDigits_of_lt (by omega), hhigh, hthird, hlow, Nat.div_div_eq_div_mul]
  simp [ofWord, ofBytes, chars, byteChars]

end ChipEight.Hex
