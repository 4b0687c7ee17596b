import ChipEight.Proofs.Plotting
import Mathlib.Data.List.Perm.Basic

/-! What a sprite does to a screen, told by its bits. A sprite put with its corner somewhere on the screen
switches over the pixels that its set bits fall on, as far as they fall on the screen, and collides where
one of them was lit. A list of sprites drawn one after the other comes to an exclusive or with a single
screen, so the order does not matter and drawing everything twice draws nothing. -/
namespace ChipEight.Screen

/-- The bit of a sprite that falls on a pixel when its corner is at column `left` and row `top`. The rows
are bytes with the leftmost pixel in the highest bit. -/
def spriteBit (sprite : List UInt8) (left top column row : Nat) : Bool :=
  if h : top ≤ row ∧ row - top < sprite.length ∧ left ≤ column ∧ column - left < 8 then
    (sprite.get ⟨row - top, h.2.1⟩).toNat.testBit (7 - (column - left))
  else false

lemma testBit_toNat_eq_getMsbD (bits : UInt8) {k : Nat} (hk : k < 8) :
    bits.toNat.testBit (7 - k) = bits.toBitVec.getMsbD k := by
  rw [BitVec.getMsbD_eq_getLsbD, ← BitVec.testBit_toNat]
  simp [hk]

lemma spriteBit_eq_getMsbD (sprite : List UInt8) (left top column row : Nat) :
    spriteBit sprite left top column row = (decide (left ≤ column ∧ top ≤ row) &&
      (sprite[row - top]?.getD 0).toBitVec.getMsbD (column - left)) := by
  unfold spriteBit
  split
  case isTrue h =>
    obtain ⟨htop, hrows, hleft, hbits⟩ := h
    rw [testBit_toNat_eq_getMsbD _ hbits]
    simp [htop, hrows, hleft]
  case isFalse h =>
    -- either the corner is past the pixel or the sprite does not reach it
    by_cases hcorner : left ≤ column ∧ top ≤ row
    · by_cases hrows : row - top < sprite.length
      · have hbits : 8 ≤ column - left := by omega
        simp [BitVec.getMsbD_of_ge _ _ hbits]
      · simp [List.getElem?_eq_none (Nat.not_lt.1 hrows), UInt8.toBitVec_ofNat]
    · simp [hcorner]

lemma pixel_stamp_eq_true_iff (x y : UInt8) (sprite : List UInt8) (c r : Nat) :
    (stamp x y sprite).pixel c r = true ↔
      c < 64 ∧ r < 32 ∧ spriteBit sprite (x.toNat % 64) (y.toNat % 32) c r = true := by
  rw [pixel_stamp, spriteBit_eq_getMsbD, originColumn, originRow]
  simp only [Bool.and_eq_true, decide_eq_true_eq]
  tauto

lemma pixel_stamp_eq_spriteBit (x y : UInt8) (sprite : List UInt8) (c : Fin 64) (r : Fin 32) :
    (stamp x y sprite).pixel c r = spriteBit sprite (x.toNat % 64) (y.toNat % 32) c r := by
  rw [Bool.eq_iff_iff, pixel_stamp_eq_true_iff]
  simp [c.isLt, r.isLt]

lemma draw_collides_iff (s : Screen) (x y : UInt8) (sprite : List UInt8) :
    (s.draw x y sprite).2 = true ↔ ∃ (c : Fin 64) (r : Fin 32), s.pixel c r = true ∧
      spriteBit sprite (x.toNat % 64) (y.toNat % 32) c r = true := by
  have hstamp : (s.draw x y sprite).2 = s.collides (stamp x y sprite) := rfl
  rw [hstamp, collides_iff]
  constructor
  · rintro ⟨c, r, hlit, hbit⟩
    obtain ⟨hc, hr, hbit⟩ := (pixel_stamp_eq_true_iff x y sprite c r).1 hbit
    exact ⟨⟨c, hc⟩, ⟨r, hr⟩, hlit, hbit⟩
  · rintro ⟨c, r, hlit, hbit⟩
    exact ⟨c, r, hlit, (pixel_stamp_eq_true_iff x y sprite c r).2 ⟨c.isLt, r.isLt, hbit⟩⟩

lemma pixel_draw_eq_xor_bit (s : Screen) (x y : UInt8) (sprite : List UInt8) (c : Fin 64)
    (r : Fin 32) : (s.draw x y sprite).1.pixel c r =
      Bool.xor (s.pixel c r) (spriteBit sprite (x.toNat % 64) (y.toNat % 32) c r) := by
  rw [pixel_draw, pixel_stamp_eq_spriteBit]

/-- The loop over the bits of a sprite gets through and gives what drawing gives: each pixel of the screen
is switched over by the bit that falls on it, none in front of the corner is touched, and there is a
collision exactly if some lit pixel has gone dark. -/
theorem draw_switches_bits_on_screen (s : Screen) (x y : UInt8) (sprite : List UInt8) :
    s.plotSprite? x y sprite = some (s.draw x y sprite) ∧
      (∀ (c : Fin 64) (r : Fin 32), (s.draw x y sprite).1.pixel c r =
        Bool.xor (s.pixel c r) (spriteBit sprite (x.toNat % 64) (y.toNat % 32) c r)) ∧
      (∀ (c : Fin 64) (r : Fin 32), c.val < x.toNat % 64 ∨ r.val < y.toNat % 32 →
        (s.draw x y sprite).1.pixel c r = s.pixel c r) ∧
      ((s.draw x y sprite).2 = true ↔ ∃ (c : Fin 64) (r : Fin 32),
        s.pixel c r = true ∧ (s.draw x y sprite).1.pixel c r = false) := by
  refine ⟨plotSprite?_eq_draw s x y sprite, pixel_draw_eq_xor_bit s x y sprite, ?_, ?_⟩
  · intro c r hbefore
    have hbit : spriteBit sprite (x.toNat % 64) (y.toNat % 32) c r = false :=
      dif_neg fun h => by omega
    rw [pixel_draw_eq_xor_bit, hbit, Bool.xor_false]
  · rw [draw_collides_iff]
    refine exists_congr fun c => exists_congr fun r => and_congr_right fun hlit => ?_
    rw [pixel_draw_eq_xor_bit, hlit]
    simp

/-- A sprite of two full rows at the last column and row, which the coordinates name with a turn round the
screen each: of its sixteen bits one falls on the screen. -/
theorem draw_switches_bits_on_screen_last_corner :
    (blank.draw 127 63 [0xff, 0xff]).1.pixel 63 31 = true ∧
      (blank.draw 127 63 [0xff, 0xff]).1.pixel 0 31 = false ∧
      (blank.draw 127 63 [0xff, 0xff]).1.pixel 63 0 = false ∧
      ((blank.draw 127 63 [0xff, 0xff]).1.draw 127 63 [0x80]).2 = true := by
  obtain ⟨-, hbits, hbefore, -⟩ := draw_switches_bits_on_screen blank 127 63 [0xff, 0xff]
  obtain ⟨-, -, -, hcollides⟩ :=
    draw_switches_bits_on_screen (blank.draw 127 63 [0xff, 0xff]).1 127 63 [0x80]
  have hlit : (blank.draw 127 63 [0xff, 0xff]).1.pixel 63 31 = true :=
    (hbits 63 31).trans (by decide)
  refine ⟨hlit, ?_, ?_, hcollides.2 ⟨63, 31, hlit, ?_⟩⟩
  · exact (hbefore 0 31 (.inl (by decide))).trans (pixel_blank 0 31)
  · exact (hbefore 63 0 (.inr (by decide))).trans (pixel_blank 63 0)
  · decide +kernel

structure Drawing where
  x : UInt8
  y : UInt8
  sprite : List UInt8

def Drawing.bit (d : Drawing) (c : Fin 64) (r : Fin 32) : Bool :=
  spriteBit d.sprite (d.x.toNat % 64) (d.y.toNat % 32) c r

def place (s : Screen) (d : Drawing) : Screen × Bool := s.draw d.x d.y d.sprite

def drawAll (s : Screen) (drawings : List Drawing) : Screen :=
  drawings.foldl (fun s d => (s.place d).1) s

lemma drawAll_append (s : Screen) (a b : List Drawing) :
    s.drawAll (a ++ b) = (s.drawAll a).drawAll b :=
  List.foldl_append

lemma blank_xor (s : Screen) : blank.xor s = s := by
  rw [xor_comm, xor_blank]

theorem drawAll_eq_xor (s : Screen) (drawings : List Drawing) :
    s.drawAll drawings = s.xor (blank.drawAll drawings) := by
  induction drawings generalizing s with
  | nil => exact (xor_blank s).symm
  | cons d rest ih =>
    have hfirst (t : Screen) : (t.place d).1 = t.xor (stamp d.x d.y d.sprite) := rfl
    calc s.drawAll (d :: rest)
        = (s.place d).1.xor (blank.drawAll rest) := ih (s.place d).1
      _ = s.xor ((stamp d.x d.y d.sprite).xor (blank.drawAll rest)) := by
          rw [hfirst, xor_assoc]
      _ = s.xor ((blank.place d).1.drawAll rest) := by
          rw [ih (blank.place d).1, hfirst, blank_xor]

lemma place_place_comm (s : Screen) (d e : Drawing) :
    ((s.place d).1.place e).1 = ((s.place e).1.place d).1 := by
  change (s.xor _).xor _ = (s.xor _).xor _
  rw [xor_assoc, xor_assoc, xor_comm (stamp d.x d.y d.sprite)]

theorem drawAll_perm {a b : List Drawing} (h : a.Perm b) (s : Screen) :
    s.drawAll a = s.drawAll b := by
  unfold drawAll
  apply h.foldl_eq'
  intro d _ e _ t
  exact place_place_comm t d e

theorem drawAll_drawAll (s : Screen) (drawings : List Drawing) :
    (s.drawAll drawings).drawAll drawings = s := by
  rw [drawAll_eq_xor (s.drawAll drawings), drawAll_eq_xor s, xor_assoc, xor_self, xor_blank]

/-- What two calls in a row tell that draw the same. -/
structure ToldTwice (s : Screen) (d : Drawing) : Prop where
  first : (s.place d).2 = true ↔
    ∃ (c : Fin 64) (r : Fin 32), d.bit c r = true ∧ s.pixel c r = true
  second : ((s.place d).1.place d).2 = true ↔
    ∃ (c : Fin 64) (r : Fin 32), d.bit c r = true ∧ s.pixel c r = false
  either : (s.place d).2 = true ∨ ((s.place d).1.place d).2 = true ↔
    ∃ (c : Fin 64) (r : Fin 32), d.bit c r = true

theorem toldTwice (s : Screen) (d : Drawing) : ToldTwice s d := by
  have hfirst : (s.place d).2 = true ↔
      ∃ (c : Fin 64) (r : Fin 32), d.bit c r = true ∧ s.pixel c r = true := by
    simp only [and_comm (a := d.bit _ _ = true)]
    exact draw_collides_iff s d.x d.y d.sprite
  have hsecond : ((s.place d).1.place d).2 = true ↔
      ∃ (c : Fin 64) (r : Fin 32), d.bit c r = true ∧ s.pixel c r = false := by
    refine (draw_collides_iff (s.place d).1 d.x d.y d.sprite).trans ?_
    refine exists_congr fun c => exists_congr fun r => ?_
    -- where a bit falls, the first drawing has switched the pixel over
    have hswitched : (s.place d).1.pixel c r = Bool.xor (s.pixel c r) (d.bit c r) :=
      pixel_draw_eq_xor_bit s d.x d.y d.sprite c r
    change _ ∧ d.bit c r = true ↔ _
    rw [hswitched]
    cases d.bit c r <;> simp
  refine ⟨hfirst, hsecond, ?_⟩
  rw [hfirst, hsecond]
  constructor
  · rintro (⟨c, r, hbit, -⟩ | ⟨c, r, hbit, -⟩) <;> exact ⟨c, r, hbit⟩
  · rintro ⟨c, r, hbit⟩
    cases hlit : s.pixel c r with
    | true => exact .inl ⟨c, r, hbit, hlit⟩
    | false => exact .inr ⟨c, r, hbit, hlit⟩

/-- Drawings may be made in any order, and made twice, in any order, they cancel. Of two calls that draw
the same, the first collides with what is lit and the second with what was dark. -/
theorem drawing_commutes_and_cancels (s : Screen) (drawings : List Drawing) :
    (∀ other, drawings.Perm other → s.drawAll other = s.drawAll drawings) ∧
      (∀ again, drawings.Perm again → (s.drawAll drawings).drawAll again = s) ∧
      (∀ mixed, (drawings ++ drawings).Perm mixed → s.drawAll mixed = s) ∧
      ∀ d, ToldTwice s d := by
  refine ⟨?_, ?_, ?_, toldTwice s⟩
  · intro other hother
    exact (drawAll_perm hother s).symm
  · intro again hagain
    rw [← drawAll_perm hagain, drawAll_drawAll]
  · intro mixed hmixed
    rw [← drawAll_perm hmixed, drawAll_append, drawAll_drawAll]

/-- A letter cut off at the corner of the screen. -/
def cutLetter : Drawing := ⟨62, 30, [0xf0, 0x90, 0xf0]⟩

/-- A bar that crosses it. -/
def crossBar : Drawing := ⟨60, 31, [0xff]⟩

theorem drawing_commutes_and_cancels_crossing :
    blank.drawAll [crossBar, cutLetter] = blank.drawAll [cutLetter, crossBar] ∧
      (blank.drawAll [cutLetter, crossBar]).drawAll [crossBar, cutLetter] = blank ∧
      blank.drawAll [cutLetter, crossBar, crossBar, cutLetter] = blank ∧
      (((blank.drawAll [crossBar]).place cutLetter).2 = true ∨
        (((blank.drawAll [crossBar]).place cutLetter).1.place cutLetter).2 = true) := by
  have hswap : [cutLetter, crossBar].Perm [crossBar, cutLetter] := .swap _ _ _
  obtain ⟨hother, hagain, hmixed, -⟩ :=
    drawing_commutes_and_cancels blank [cutLetter, crossBar]
  obtain ⟨-, -, -, htold⟩ := drawing_commutes_and_cancels (blank.drawAll [crossBar]) []
  exact ⟨hother _ hswap, hagain _ hswap, hmixed _ (.cons _ (.cons _ hswap)),
    (htold cutLetter).either.2 ⟨62, 30, by decide⟩⟩

end ChipEight.Screen
