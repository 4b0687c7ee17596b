/-! The screen of 64 by 32 pixels, a 64-bit word a row with column 0 in the top bit. A sprite is
first stamped on a blank screen of its own, where its origin wraps and its edges are clipped; drawing
is the exclusive or with that stamp, and two screens collide where they are both lit. -/
namespace ChipEight

abbrev Row := BitVec 64

structure Screen where
  rows : Vector Row 32
  deriving DecidableEq

def Row.litCount (row : Row) : Nat := (List.range 64).countP row.getMsbD

/-- Eight pixels from `column` on, cut off at the right edge. -/
def Row.ofByte (column : Nat) (bits : UInt8) : Row :=
  (bits.toBitVec.setWidth 64 <<< 56) >>> column

theorem Row.getMsbD_ofByte (column x : Nat) (bits : UInt8) :
    (Row.ofByte column bits).getMsbD x =
      (decide (x < 64 ∧ column ≤ x) && bits.toBitVec.getMsbD (x - column)) := by
  simp only [Row.ofByte, BitVec.getMsbD_ushiftRight, BitVec.getMsbD_shiftLeft,
    BitVec.getMsbD_setWidth]
  by_cases h : column ≤ x
  · by_cases hx : x < 64 <;> simp [h, hx, Nat.not_lt.2 h]
  · simp [h, Nat.lt_of_not_le h]

namespace Screen

def blank : Screen := ⟨Vector.replicate 32 0⟩

/-- Dark outside the screen. -/
def pixel (s : Screen) (x y : Nat) : Bool := (s.rows[y]?.getD 0).getMsbD x

def litCount (s : Screen) : Nat := s.rows.toList.foldl (fun n row => n + row.litCount) 0

def xor (s t : Screen) : Screen := ⟨s.rows.zipWith (· ^^^ ·) t.rows⟩

def overlap (s t : Screen) : Screen := ⟨s.rows.zipWith (· &&& ·) t.rows⟩

def originColumn (x : UInt8) : Nat := x.toNat % 64

def originRow (y : UInt8) : Nat := y.toNat % 32

/-- How many rows there are from the origin of a sprite to the bottom. -/
def rowsBelow (y : UInt8) : Nat := 32 - originRow y

def stamp (x y : UInt8) (sprite : List UInt8) : Screen where
  rows := Vector.ofFn fun r : Fin 32 =>
    if originRow y ≤ r.val then
      (sprite[r.val - originRow y]?).elim 0 (Row.ofByte (originColumn x))
    else 0

def collides (s t : Screen) : Bool := s.overlap t != blank

/-- The screen with a sprite on it, and whether a lit pixel went dark. -/
def draw (s : Screen) (x y : UInt8) (sprite : List UInt8) : Screen × Bool :=
  let t := stamp x y sprite
  (s.xor t, s.collides t)

theorem pixel_of_lt (s : Screen) (x : Nat) {y : Nat} (h : y < 32) :
    s.pixel x y = s.rows[y].getMsbD x := by
  simp [pixel, h]

theorem pixel_blank (x y : Nat) : blank.pixel x y = false := by
  by_cases h : y < 32 <;> simp [blank, pixel, h]

theorem pixel_xor (s t : Screen) (x y : Nat) :
    (s.xor t).pixel x y = Bool.xor (s.pixel x y) (t.pixel x y) := by
  by_cases h : y < 32 <;> simp [xor, pixel, h]

theorem pixel_overlap (s t : Screen) (x y : Nat) :
    (s.overlap t).pixel x y = (s.pixel x y && t.pixel x y) := by
  by_cases h : y < 32 <;> simp [overlap, pixel, h]

theorem ext_pixel {s t : Screen} (h : ∀ x y, s.pixel x y = t.pixel x y) : s = t := by
  obtain ⟨s⟩ := s; obtain ⟨t⟩ := t
  congr 1
  ext y hy : 1
  apply BitVec.eq_of_getMsbD_eq
  intro x _
  simpa [pixel, hy] using h x y

theorem pixel_stamp (x y : UInt8) (sprite : List UInt8) (c r : Nat) :
    (stamp x y sprite).pixel c r =
      (decide (c < 64 ∧ r < 32 ∧ originColumn x ≤ c ∧ originRow y ≤ r) &&
        (sprite[r - originRow y]?.getD 0).toBitVec.getMsbD (c - originColumn x)) := by
  by_cases hr : r < 32
  · by_cases hy : originRow y ≤ r
    · cases hs : sprite[r - originRow y]? <;>
        simp [stamp, pixel, hr, hy, hs, Row.getMsbD_ofByte, UInt8.toBitVec_ofNat]
    · simp [stamp, pixel, hr, hy]
  · simp [stamp, pixel, hr]

theorem collides_iff (s t : Screen) :
    s.collides t = true ↔ ∃ x y, s.pixel x y = true ∧ t.pixel x y = true := by
  rw [collides, bne_iff_ne]
  constructor
  · intro h
    apply Classical.byContradiction
    intro hn
    apply h
    apply ext_pixel
    intro x y
    rw [pixel_overlap, pixel_blank]
    cases hs : s.pixel x y <;> cases ht : t.pixel x y <;> try rfl
    exact absurd ⟨x, y, hs, ht⟩ hn
  · rintro ⟨x, y, hs, ht⟩ h
    have := pixel_overlap s t x y
    rw [h, pixel_blank, hs, ht] at this
    cases this

theorem pixel_draw (s : Screen) (x y : UInt8) (sprite : List UInt8) (c r : Nat) :
    (s.draw x y sprite).1.pixel c r = Bool.xor (s.pixel c r) ((stamp x y sprite).pixel c r) :=
  pixel_xor s (stamp x y sprite) c r

theorem xor_comm (s t : Screen) : s.xor t = t.xor s :=
  ext_pixel fun x y => by simp [pixel_xor, Bool.xor_comm]

theorem xor_assoc (s t u : Screen) : (s.xor t).xor u = s.xor (t.xor u) :=
  ext_pixel fun x y => by simp [pixel_xor]

theorem xor_self (s : Screen) : s.xor s = blank :=
  ext_pixel fun x y => by simp [pixel_xor, pixel_blank]

theorem xor_blank (s : Screen) : s.xor blank = s :=
  ext_pixel fun x y => by simp [pixel_xor, pixel_blank]

end Screen

end ChipEight
