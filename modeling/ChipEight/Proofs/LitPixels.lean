import ChipEight.Proofs.Sprites
import Mathlib.Algebra.BigOperators.Group.Finset.Piecewise
import Mathlib.Algebra.BigOperators.Group.Finset.Sigma
import Mathlib.Data.Finset.SymmDiff
import Mathlib.Order.Interval.Finset.Nat

/-! How many pixels are lit. A sprite adds a lit pixel for each of its set bits that lands on the screen,
except where the pixel was lit already: there the bit and the pixel both go. What is counted on the side
of the sprite are its own bits, row by row, and not the pixels that have changed. -/
namespace ChipEight.Screen

open scoped symmDiff

/-- The lit pixels, by column and row. -/
def lit (s : Screen) : Finset (Nat × Nat) :=
  {p ∈ Finset.range 64 ×ˢ Finset.range 32 | s.pixel p.1 p.2 = true}

lemma lt_of_pixel {s : Screen} {c r : Nat} (h : s.pixel c r = true) : c < 64 ∧ r < 32 := by
  by_cases hr : r < 32
  · rw [pixel_of_lt s c hr] at h
    exact ⟨BitVec.lt_of_getMsbD h, hr⟩
  · have hdark : s.pixel c r = false := by simp [pixel, hr]
    rw [hdark] at h
    cases h

lemma mem_lit {s : Screen} {p : Nat × Nat} : p ∈ s.lit ↔ s.pixel p.1 p.2 = true := by
  rw [lit, Finset.mem_filter, Finset.mem_product, Finset.mem_range, Finset.mem_range]
  exact ⟨fun h => h.2, fun h => ⟨lt_of_pixel h, h⟩⟩

lemma lit_blank : blank.lit = ∅ := by
  ext p
  rw [mem_lit, pixel_blank]
  simp

lemma lit_xor (s t : Screen) : (s.xor t).lit = s.lit ∆ t.lit := by
  ext p
  rw [mem_lit, pixel_xor, Finset.mem_symmDiff, mem_lit, mem_lit]
  cases s.pixel p.1 p.2 <;> cases t.pixel p.1 p.2 <;> simp

lemma collides_iff_nonempty (s t : Screen) : s.collides t = true ↔ (s.lit ∩ t.lit).Nonempty := by
  simp only [collides_iff, Finset.Nonempty, Finset.mem_inter, mem_lit, Prod.exists]

lemma litCount_row (row : Row) :
    row.litCount = {c ∈ Finset.range 64 | row.getMsbD c = true}.card := by
  rw [Row.litCount, List.countP_eq_length_filter,
    ← List.toFinset_card_of_nodup (List.nodup_range.filter _), List.toFinset_filter,
    List.toFinset_range]

lemma foldl_add_eq_sum (f : Nat → Nat) (n : Nat) :
    (List.range n).foldl (fun a k => a + f k) 0 = ∑ k ∈ Finset.range n, f k := by
  induction n with
  | zero => rfl
  | succ n ih => rw [List.range_succ, List.foldl_append, ih, Finset.sum_range_succ]; rfl

theorem litCount_eq_card (s : Screen) : s.litCount = s.lit.card := by
  have hrows : s.rows.toList = (List.range 32).map fun r => s.rows[r]?.getD 0 := by
    apply List.ext_getElem
    · simp
    · intro r hr _
      have hlt : r < 32 := by simpa using hr
      simp [hlt]
  rw [litCount, hrows, List.foldl_map, foldl_add_eq_sum, lit, Finset.card_filter,
    Finset.sum_product_right]
  apply Finset.sum_congr rfl
  intro r _
  rw [litCount_row, Finset.card_filter]
  rfl

lemma card_symmDiff_add {α : Type} [DecidableEq α] (a b : Finset α) :
    (a ∆ b).card + 2 * (a ∩ b).card = a.card + b.card := by
  have ha := Finset.card_sdiff_add_card_inter a b
  have hb := Finset.card_sdiff_add_card_inter b a
  rw [Finset.inter_comm] at hb
  have hdisjoint : Disjoint (a \ b) (b \ a) := disjoint_sdiff_sdiff
  have hunion : (a ∆ b).card = (a \ b).card + (b \ a).card :=
    Finset.card_union_of_disjoint hdisjoint
  omega

/-- The pixel that a bit of the sprite falls on, for the bit at distance `p.2` from the left of row
`p.1`. -/
def Drawing.target (d : Drawing) (p : Nat × Nat) : Nat × Nat :=
  (d.x.toNat % 64 + p.2, d.y.toNat % 32 + p.1)

/-- The set bits of the sprite that land on the screen. -/
def Drawing.landed (d : Drawing) : Finset (Nat × Nat) :=
  {p ∈ Finset.range d.sprite.length ×ˢ Finset.range 8 |
    (d.sprite.getD p.1 0).toNat.testBit (7 - p.2) = true ∧
      (d.target p).1 < 64 ∧ (d.target p).2 < 32}

/-- Those that land on a pixel which was lit before. -/
def Drawing.overlaps (d : Drawing) (s : Screen) : Finset (Nat × Nat) :=
  {p ∈ d.landed | s.pixel (d.target p).1 (d.target p).2 = true}

lemma Drawing.mem_landed {d : Drawing} {i k : Nat} : (i, k) ∈ d.landed ↔
    (i < d.sprite.length ∧ k < 8) ∧ (d.sprite.getD i 0).toNat.testBit (7 - k) = true ∧
      (d.target (i, k)).1 < 64 ∧ (d.target (i, k)).2 < 32 := by
  rw [landed, Finset.mem_filter, Finset.mem_product, Finset.mem_range, Finset.mem_range]

lemma Drawing.target_injective (d : Drawing) : Function.Injective d.target := by
  intro p q h
  simp only [target, Prod.mk.injEq, Nat.add_left_cancel_iff] at h
  exact Prod.ext h.2 h.1

lemma spriteBit_eq_true_iff {sprite : List UInt8} {left top c r : Nat} :
    spriteBit sprite left top c r = true ↔ ∃ i k, (i < sprite.length ∧ k < 8) ∧
      (sprite.getD i 0).toNat.testBit (7 - k) = true ∧ left + k = c ∧ top + i = r := by
  unfold spriteBit
  constructor
  · intro h
    split at h
    case isTrue hinside =>
      obtain ⟨htop, hi, hleft, hk⟩ := hinside
      refine ⟨r - top, c - left, ⟨hi, hk⟩, ?_, by omega, by omega⟩
      rw [List.getD_eq_getElem?_getD, List.getElem?_eq_getElem hi, Option.getD_some]
      exact h
    case isFalse => cases h
  · rintro ⟨i, k, ⟨hi, hk⟩, hbit, rfl, rfl⟩
    have hinside : top ≤ top + i ∧ top + i - top < sprite.length ∧ left ≤ left + k ∧
        left + k - left < 8 := by omega
    rw [dif_pos hinside]
    rw [List.getD_eq_getElem?_getD, List.getElem?_eq_getElem hi, Option.getD_some] at hbit
    simpa using hbit

/-- No two bits land on the same pixel, and the pixels that they land on are those that the stamp lights. -/
lemma Drawing.image_landed (d : Drawing) :
    d.landed.image d.target = (stamp d.x d.y d.sprite).lit := by
  ext ⟨c, r⟩
  rw [Finset.mem_image, mem_lit, pixel_stamp_eq_true_iff, spriteBit_eq_true_iff]
  simp only [Prod.exists, mem_landed, target, Prod.mk.injEq]
  constructor
  · rintro ⟨i, k, ⟨hin, hbit, hc, hr⟩, rfl, rfl⟩
    exact ⟨hc, hr, i, k, hin, hbit, rfl, rfl⟩
  · rintro ⟨hc, hr, i, k, hin, hbit, rfl, rfl⟩
    exact ⟨i, k, ⟨hin, hbit, hc, hr⟩, rfl, rfl⟩

lemma Drawing.card_landed (d : Drawing) :
    d.landed.card = (stamp d.x d.y d.sprite).lit.card := by
  rw [← d.image_landed, Finset.card_image_of_injective _ d.target_injective]

lemma Drawing.card_overlaps (d : Drawing) (s : Screen) :
    (d.overlaps s).card = (s.lit ∩ (stamp d.x d.y d.sprite).lit).card := by
  have himage : (d.overlaps s).image d.target = s.lit ∩ (stamp d.x d.y d.sprite).lit := by
    rw [← d.image_landed, Finset.inter_comm]
    ext p
    simp only [overlaps, Finset.mem_image, Finset.mem_filter, Finset.mem_inter, mem_lit]
    constructor
    · rintro ⟨q, ⟨hq, hlit⟩, rfl⟩
      exact ⟨⟨q, hq, rfl⟩, hlit⟩
    · rintro ⟨⟨q, hq, rfl⟩, hlit⟩
      exact ⟨q, ⟨hq, hlit⟩, rfl⟩
  rw [← himage, Finset.card_image_of_injective _ d.target_injective]

/-- Lit pixels and set bits before a drawing, and lit pixels after it with the overlaps twice. -/
theorem litCount_place (s : Screen) (d : Drawing) :
    (s.place d).1.litCount + 2 * (d.overlaps s).card = s.litCount + d.landed.card := by
  have hscreen : (s.place d).1 = s.xor (stamp d.x d.y d.sprite) := rfl
  rw [litCount_eq_card, litCount_eq_card, hscreen, lit_xor, d.card_overlaps, d.card_landed,
    card_symmDiff_add]

lemma place_collides_iff (s : Screen) (d : Drawing) :
    (s.place d).2 = true ↔ 0 < (d.overlaps s).card := by
  have hhit : (s.place d).2 = s.collides (stamp d.x d.y d.sprite) := rfl
  rw [hhit, collides_iff_nonempty, d.card_overlaps, Finset.card_pos]

structure Accounted (s : Screen) (d : Drawing) : Prop where
  count : ((s.place d).1.litCount : Int) = s.litCount + d.landed.card - 2 * (d.overlaps s).card
  overlaps_le : (d.overlaps s).card ≤ min d.landed.card s.litCount
  collides : (s.place d).2 = true ↔ 0 < (d.overlaps s).card
  clear : (s.place d).2 = false ↔ (s.place d).1.litCount = s.litCount + d.landed.card

theorem accounted (s : Screen) (d : Drawing) : Accounted s d := by
  have hcount := litCount_place s d
  have hcollides := place_collides_iff s d
  refine ⟨by omega, Nat.le_min.2 ⟨?_, ?_⟩, hcollides, ?_⟩
  · exact Finset.card_le_card (Finset.filter_subset _ _)
  · rw [d.card_overlaps, litCount_eq_card]
    exact Finset.card_le_card Finset.inter_subset_left
  · rw [← Bool.not_eq_true, hcollides]
    omega

lemma litCount_drawAll (s : Screen) (drawings : List Drawing) :
    (s.drawAll drawings).litCount % 2 =
      (s.litCount + (drawings.map fun d => d.landed.card).sum) % 2 := by
  induction drawings generalizing s with
  | nil => rfl
  | cons d rest ih =>
    have hfirst := litCount_place s d
    have hrest : s.drawAll (d :: rest) = (s.place d).1.drawAll rest := rfl
    rw [hrest, ih, List.map_cons, List.sum_cons]
    omega

/-- The loop over the bits of a sprite lights as many pixels as it lands bits on dark ones and puts out as
many as it lands on lit ones; it tells of a collision exactly if there is one of the latter. So after any
drawings on a blank screen the lit pixels are even or odd as the bits are that have landed. -/
theorem lit_pixels_add_up :
    (∀ (s : Screen) (x y : UInt8) (sprite : List UInt8),
      s.plotSprite? x y sprite = some (s.place ⟨x, y, sprite⟩) ∧ Accounted s ⟨x, y, sprite⟩) ∧
    ∀ drawings : List Drawing, (blank.drawAll drawings).litCount % 2 =
      (drawings.map fun d => d.landed.card).sum % 2 := by
  constructor
  · intro s x y sprite
    exact ⟨plotSprite?_eq_draw s x y sprite, accounted s ⟨x, y, sprite⟩⟩
  · intro drawings
    have hblank : blank.litCount = 0 := by rw [litCount_eq_card, lit_blank, Finset.card_empty]
    rw [litCount_drawAll, hblank, Nat.zero_add]

/-- Of two bars at the corner of the screen eight bits land. -/
example : Drawing.landed ⟨60, 30, [0xff, 0xff, 0xff]⟩ =
    {(0, 0), (0, 1), (0, 2), (0, 3), (1, 0), (1, 1), (1, 2), (1, 3)} := by decide

end ChipEight.Screen
