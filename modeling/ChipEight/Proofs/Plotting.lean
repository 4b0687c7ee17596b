import ChipEight.Screen
import Mathlib.Tactic.IntervalCases
import Mathlib.Tactic.Lemma

/-! Drawing pixel by pixel. The loop runs over the rows of a sprite and the bits of a row, stops at the
edges and switches one pixel at a time; it has no answer when it is about to leave the screen. It never
does, and comes to the same screen and the same collision as drawing with a stamp. -/
namespace ChipEight.Screen

/-- Switches a pixel over and tells whether it was lit. -/
def plot? (s : Screen) (column row : Nat) : Option (Screen × Bool) :=
  if h : row < 32 ∧ column < 64 then
    some (⟨s.rows.set row (s.rows[row] ^^^ BitVec.twoPow 64 (63 - column)) h.1⟩,
      s.rows[row].getMsbD column)
  else none

/-- Goes through the bits of one row of a sprite at the given distances from its left end. -/
def plotBits? (column row : Nat) (bits : UInt8) :
    List Nat → Screen → Bool → Option (Screen × Bool)
  | [], s, hit => some (s, hit)
  | dx :: rest, s, hit =>
    if 64 ≤ column + dx then some (s, hit)
    else if bits &&& (0x80 >>> UInt8.ofNat dx) = 0 then plotBits? column row bits rest s hit
    else do
      let (s, lit) ← s.plot? (column + dx) row
      plotBits? column row bits rest s (hit || lit)

/-- Goes through the rows of a sprite, the first of them `dy` below its top. -/
def plotRows? (column row : Nat) : List UInt8 → Nat → Screen → Bool → Option (Screen × Bool)
  | [], _, s, hit => some (s, hit)
  | bits :: rest, dy, s, hit =>
    if 32 ≤ row + dy then some (s, hit)
    else do
      let (s, hit) ← plotBits? column (row + dy) bits (List.range 8) s hit
      plotRows? column row rest (dy + 1) s hit

def plotSprite? (s : Screen) (x y : UInt8) (sprite : List UInt8) : Option (Screen × Bool) :=
  plotRows? (x.toNat % 64) (y.toNat % 32) sprite 0 s false

/-- The pixels of `mask` have been switched over, each once, and `hit` has been raised if one of them
was lit. -/
structure Toggled (mask : Nat → Nat → Bool) (s : Screen) (hit : Bool) (out : Screen × Bool) :
    Prop where
  pixel : ∀ c r, out.1.pixel c r = Bool.xor (s.pixel c r) (mask c r)
  hit : out.2 = true ↔ hit = true ∨ ∃ c r, s.pixel c r = true ∧ mask c r = true

lemma Toggled.none (s : Screen) (hit : Bool) {mask : Nat → Nat → Bool}
    (h : ∀ c r, mask c r = false) : Toggled mask s hit (s, hit) where
  pixel c r := by simp [h c r]
  hit := by simp [h]

lemma Toggled.congr {mask mask' : Nat → Nat → Bool} {s : Screen} {hit : Bool}
    {out : Screen × Bool} (h : Toggled mask s hit out) (he : ∀ c r, mask' c r = mask c r) :
    Toggled mask' s hit out := by
  have : mask' = mask := funext fun c => funext (he c)
  exact this ▸ h

lemma Toggled.trans {first second : Nat → Nat → Bool} {s : Screen} {hit : Bool}
    {mid out : Screen × Bool} (h : Toggled first s hit mid) (h' : Toggled second mid.1 mid.2 out)
    (apart : ∀ c r, first c r = true → second c r = false) :
    Toggled (fun c r => first c r || second c r) s hit out where
  pixel c r := by
    rw [h'.pixel, h.pixel]
    cases hf : first c r with
    | false => simp
    | true => simp [apart c r hf]
  hit := by
    -- a pixel of the second pass looks the same before and after the first
    have same : ∀ c r, second c r = true → mid.1.pixel c r = s.pixel c r := by
      intro c r hs
      cases hf : first c r with
      | false => simp [h.pixel, hf]
      | true => simp [apart c r hf] at hs
    rw [h'.hit, h.hit]
    constructor
    · intro hh
      rcases hh with (hh | ⟨c, r, hp, hm⟩) | ⟨c, r, hp, hm⟩
      · exact .inl hh
      · exact .inr ⟨c, r, hp, by simp [hm]⟩
      · exact .inr ⟨c, r, same c r hm ▸ hp, by simp [hm]⟩
    · intro hh
      rcases hh with hh | ⟨c, r, hp, hm⟩
      · exact .inl (.inl hh)
      · rcases Bool.or_eq_true_iff.1 hm with hf | hs
        · exact .inl (.inr ⟨c, r, hp, hf⟩)
        · exact .inr ⟨c, r, (same c r hs).symm ▸ hp, hs⟩

lemma and_eq_zero_iff (bits : UInt8) {dx : Nat} (h : dx < 8) :
    bits &&& (0x80 >>> UInt8.ofNat dx) = 0 ↔ bits.toBitVec.getMsbD dx = false := by
  have hb : (0x80 >>> UInt8.ofNat dx : UInt8).toBitVec = BitVec.twoPow 8 (7 - dx) := by
    interval_cases dx <;> rfl
  rw [← UInt8.toBitVec_inj, UInt8.toBitVec_and, hb, BitVec.and_twoPow, BitVec.getMsbD_eq_getLsbD]
  have hne : BitVec.twoPow 8 (7 - dx) ≠ 0#8 := by interval_cases dx <;> decide
  cases hl : bits.toBitVec.getLsbD (7 - dx) with
  | false => simp
  | true => simp [hne, h]

lemma plot?_eq_some (s : Screen) {column row : Nat} (hc : column < 64) (hr : row < 32) :
    s.plot? column row = some
      (⟨s.rows.set row (s.rows[row] ^^^ BitVec.twoPow 64 (63 - column))⟩, s.pixel column row) := by
  simp [plot?, hc, hr, pixel]

lemma pixel_set_row (s : Screen) {column row : Nat} (hc : column < 64) (hr : row < 32)
    (c r : Nat) :
    (Screen.mk (s.rows.set row (s.rows[row] ^^^ BitVec.twoPow 64 (63 - column)))).pixel c r =
      Bool.xor (s.pixel c r) (decide (c = column ∧ r = row)) := by
  by_cases h : r < 32
  · by_cases he : row = r
    · subst he
      have hi : c = 64 - (63 - column) - 1 ↔ c = column := by omega
      have hw : 63 - column < 64 := by omega
      simp [pixel, hr, BitVec.getMsbD_twoPow, hi, hw]
    · simp [pixel, h, he, Ne.symm he]
  · have : r ≠ row := by omega
    simp [pixel, h, this]

lemma toggled_plot (s : Screen) (hit : Bool) {column row : Nat} (hc : column < 64)
    (hr : row < 32) : ∃ s' lit, s.plot? column row = some (s', lit) ∧
      Toggled (fun c r => decide (c = column ∧ r = row)) s hit (s', hit || lit) := by
  refine ⟨_, _, plot?_eq_some s hc hr, pixel_set_row s hc hr, ?_⟩
  rw [Bool.or_eq_true_iff]
  constructor
  · intro h
    rcases h with h | h
    · exact .inl h
    · exact .inr ⟨column, row, h, by simp⟩
  · intro h
    rcases h with h | ⟨c, r, hp, hm⟩
    · exact .inl h
    · obtain ⟨rfl, rfl⟩ := of_decide_eq_true hm
      exact .inr hp

/-- The pixels that the bits from `k` on of one sprite row fall on. -/
def bitsMask (column row : Nat) (bits : UInt8) (k : Nat) (c r : Nat) : Bool :=
  decide (r = row ∧ column + k ≤ c ∧ c < 64) && bits.toBitVec.getMsbD (c - column)

lemma toggled_plotBits (column : Nat) {row : Nat} (hr : row < 32) (bits : UInt8) (n k : Nat)
    (hk : k + n = 8) (s : Screen) (hit : Bool) :
    ∃ out, plotBits? column row bits (List.range' k n) s hit = some out ∧
      Toggled (bitsMask column row bits k) s hit out := by
  induction n generalizing k s hit with
  | zero =>
    refine ⟨(s, hit), rfl, .none s hit fun c r => ?_⟩
    have : ∀ j, k ≤ j → bits.toBitVec.getMsbD j = false := by
      intro j hj
      exact BitVec.getMsbD_of_ge _ _ (by omega)
    simp only [bitsMask, Bool.and_eq_false_iff, decide_eq_false_iff_not]
    by_cases hc : column + k ≤ c
    · exact .inr (this _ (by omega))
    · exact .inl (by omega)
  | succ n ih =>
    rw [List.range'_succ, plotBits?]
    split
    case isTrue hedge =>
      refine ⟨(s, hit), rfl, .none s hit fun c r => ?_⟩
      simp only [bitsMask, Bool.and_eq_false_iff, decide_eq_false_iff_not]
      exact .inl (by omega)
    case isFalse hedge =>
      split
      case isTrue hbit =>
        obtain ⟨out, ho, ht⟩ := ih (k + 1) (by omega) s hit
        refine ⟨out, ho, ht.congr fun c r => ?_⟩
        have hd := (and_eq_zero_iff bits (show k < 8 by omega)).1 hbit
        by_cases hc : c = column + k
        · simp [bitsMask, hc, hd]
        · have : column + k ≤ c ↔ column + (k + 1) ≤ c := by omega
          simp only [bitsMask, this]
      case isFalse hbit =>
        obtain ⟨s', lit, hp, hfirst⟩ := toggled_plot s hit (show column + k < 64 by omega) hr
        obtain ⟨out, ho, ht⟩ := ih (k + 1) (by omega) s' (hit || lit)
        refine ⟨out, by simp [hp, ho], (hfirst.trans ht ?_).congr fun c r => ?_⟩
        · intro c r hm
          obtain ⟨rfl, rfl⟩ := of_decide_eq_true hm
          simp [bitsMask]
        · have hd : bits.toBitVec.getMsbD k = true := by
            rw [and_eq_zero_iff bits (show k < 8 by omega)] at hbit
            simpa using hbit
          by_cases hc : c = column + k
          · have : column + k < 64 := by omega
            simp [bitsMask, hc, hd, this]
          · have : column + k ≤ c ↔ column + (k + 1) ≤ c := by omega
            simp [bitsMask, hc, this]

/-- The pixels that the rows of a sprite fall on, the first of them `dy` below its top. -/
def rowsMask (column row : Nat) (sprite : List UInt8) (dy : Nat) (c r : Nat) : Bool :=
  decide (c < 64 ∧ r < 32 ∧ column ≤ c ∧ row + dy ≤ r) &&
    (sprite[r - (row + dy)]?.getD 0).toBitVec.getMsbD (c - column)

lemma toggled_plotRows (column row : Nat) (sprite : List UInt8) (dy : Nat) (s : Screen)
    (hit : Bool) : ∃ out, plotRows? column row sprite dy s hit = some out ∧
      Toggled (rowsMask column row sprite dy) s hit out := by
  induction sprite generalizing dy s hit with
  | nil => exact ⟨(s, hit), rfl, .none s hit fun c r => by simp [rowsMask]⟩
  | cons bits rest ih =>
    rw [plotRows?]
    split
    case isTrue hedge =>
      refine ⟨(s, hit), rfl, .none s hit fun c r => ?_⟩
      have : ¬ (c < 64 ∧ r < 32 ∧ column ≤ c ∧ row + dy ≤ r) := by omega
      simp [rowsMask, this]
    case isFalse hedge =>
      have hr : row + dy < 32 := by omega
      obtain ⟨mid, hmid, hfirst⟩ := toggled_plotBits column hr bits 8 0 rfl s hit
      obtain ⟨out, ho, hrest⟩ := ih (dy + 1) mid.1 mid.2
      refine ⟨out, by simp [List.range_eq_range', hmid, ho], ?_⟩
      refine (hfirst.trans hrest ?_).congr fun c r => ?_
      · intro c r hm
        have : ¬ row + (dy + 1) ≤ r := by
          simp only [bitsMask, Bool.and_eq_true, decide_eq_true_eq] at hm
          omega
        simp [rowsMask, this]
      · by_cases he : r = row + dy
        · have : (c < 64 ∧ column ≤ c) ↔ (column ≤ c ∧ c < 64) := and_comm
          simp [rowsMask, bitsMask, he, hr, this]
        · have hlater : row + dy ≤ r ↔ row + (dy + 1) ≤ r := by omega
          by_cases hle : row + (dy + 1) ≤ r
          · have hsub : r - (row + dy) = r - (row + (dy + 1)) + 1 := by omega
            simp [rowsMask, bitsMask, he, hlater, hsub]
          · simp [rowsMask, bitsMask, he, hlater, hle]

/-- The loop never comes to leave the screen, and draws what the stamp draws. -/
theorem plotSprite?_eq_draw (s : Screen) (x y : UInt8) (sprite : List UInt8) :
    s.plotSprite? x y sprite = some (s.draw x y sprite) := by
  obtain ⟨out, ho, ht⟩ := toggled_plotRows (originColumn x) (originRow y) sprite 0 s false
  have hmask : ∀ c r, rowsMask (originColumn x) (originRow y) sprite 0 c r =
      (stamp x y sprite).pixel c r := by
    intro c r
    rw [pixel_stamp]
    simp [rowsMask]
  have hs : out.1 = (s.draw x y sprite).1 := by
    apply ext_pixel
    intro c r
    rw [ht.pixel, hmask, pixel_draw]
  have hh : out.2 = (s.draw x y sprite).2 := by
    apply Bool.eq_iff_iff.2
    rw [ht.hit]
    simp only [hmask, draw, collides_iff, Bool.false_eq_true, false_or]
  change plotRows? (originColumn x) (originRow y) sprite 0 s false = _
  rw [ho, Prod.ext hs hh]

end ChipEight.Screen
