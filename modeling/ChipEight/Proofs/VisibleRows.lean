import ChipEight.Proofs.Sprites
import ChipEight.Proofs.WriteSets

/-! Drawing fetches only the rows of a sprite that fall on the screen. The plain way is to fetch all of
them and to switch over a pixel for each of their bits that falls on the screen. The rows past the bottom
edge leave no trace in the stamp, so both ways come to the same machine; and where the rows past the edge
would lie outside memory, it makes no difference what they are taken to be. -/
namespace ChipEight

namespace Screen

lemma stamp_take (x y : UInt8) (sprite : List UInt8) :
    stamp x y (sprite.take (rowsBelow y)) = stamp x y sprite := by
  unfold stamp
  congr 2
  funext r
  by_cases htop : originRow y ≤ r.val
  · have hrow : r.val - originRow y < rowsBelow y := by
      have := r.isLt
      rw [rowsBelow]
      omega
    rw [List.getElem?_take_of_lt hrow]
  · rw [if_neg htop, if_neg htop]

theorem draw_take_min (s : Screen) (x y : UInt8) (sprite : List UInt8) :
    s.draw x y (sprite.take (min sprite.length (rowsBelow y))) = s.draw x y sprite := by
  rw [Nat.min_comm, ← List.take_eq_take_min, draw, draw, stamp_take]

end Screen

namespace Memory

/-- The bytes from an address on in a memory that goes on past its end with those of `beyond`. -/
def stretch (m : Memory) (beyond : Nat → UInt8) (start length : Nat) : List UInt8 :=
  (List.range' start length).map fun a => if a < 4096 then m.byte a else beyond (a - 4096)

lemma length_stretch (m : Memory) (beyond : Nat → UInt8) (start length : Nat) :
    (m.stretch beyond start length).length = length := by
  rw [stretch, List.length_map, List.length_range']

lemma read_eq_stretch (m : Memory) {address : UInt16} {length : Nat}
    (h : address.toNat + length ≤ 4096) (beyond : Nat → UInt8) :
    m.read address length = .ok (m.stretch beyond address.toNat length) := by
  rw [read_of_le m h, stretch]
  congr 1
  apply List.map_congr_left
  intro a ha
  rw [List.mem_range'_1] at ha
  rw [if_pos (by omega)]

lemma take_stretch (m : Memory) (beyond : Nat → UInt8) (start : Nat) {k length : Nat}
    (hk : k ≤ length) :
    (m.stretch beyond start length).take k = m.stretch beyond start k := by
  rw [stretch, stretch, ← List.map_take, List.take_range'_of_length_ge hk]

end Memory

namespace Machine
open Screen

/-- What a step answers that has drawn all the rows of a sprite: its bits switch over the pixels that they
fall on, the flag tells whether one of those was lit, and nothing else has changed but the program counter. -/
structure DrawsPlainly (m : Machine) (d : Drawing) (r : Reply) : Prop where
  result : r.result = .ok ()
  pixels : ∀ c row, r.machine.screen.pixel c.val row.val =
    Bool.xor (m.screen.pixel c.val row.val) (d.bit c row)
  collides : ∀ c row, m.screen.pixel c.val row.val = true → d.bit c row = true →
    r.machine.v.get 15 = 1
  apart : (∀ c row, m.screen.pixel c.val row.val = true → d.bit c row = false) →
    r.machine.v.get 15 = 0
  registers : ∀ k, k ≠ 15 → r.machine.v.get k = m.v.get k
  rest : r.machine =
    { m with pc := m.pc + 2, screen := r.machine.screen, v := r.machine.v }

variable {m : Machine} {x y : Register} {height : Fin 16}

lemma execute_draw_of_le (h : m.index.toNat + m.visibleRows y height ≤ 4096)
    (beyond : Nat → UInt8) {drawn : Screen × Bool}
    (hdrawn : m.screen.draw (m.v.get x) (m.v.get y)
      (m.memory.stretch beyond m.index.toNat height.val) = drawn) :
    execute m.pc (.draw x y height) m.advance =
      .ok ({ m with pc := m.pc + 2, screen := drawn.1 }.setFlag drawn.2) := by
  have hrows : m.memory.read m.index (m.visibleRows y height) =
      .ok (m.memory.stretch beyond m.index.toNat (m.visibleRows y height)) :=
    m.memory.read_eq_stretch h beyond
  have hclip := Screen.draw_take_min m.screen (m.v.get x) (m.v.get y)
    (m.memory.stretch beyond m.index.toNat height.val)
  rw [Memory.length_stretch, Memory.take_stretch _ _ _ (Nat.min_le_left _ _), hdrawn] at hclip
  change (m.memory.read m.index (m.visibleRows y height)).map _ = _
  rw [hrows]
  exact congrArg (fun drawn : Screen × Bool =>
    Except.ok ({ m with pc := m.pc + 2, screen := drawn.1 }.setFlag drawn.2)) hclip

lemma drawsPlainly_place (m : Machine) (d : Drawing) (log : List Event) :
    m.DrawsPlainly d ⟨.ok (), { m with pc := m.pc + 2, screen := (m.screen.place d).1 }.setFlag
      (m.screen.place d).2, log⟩ := by
  have hcollides := draw_collides_iff m.screen d.x d.y d.sprite
  refine ⟨rfl, pixel_draw_eq_xor_bit m.screen d.x d.y d.sprite, ?_, ?_, ?_, rfl⟩
  · intro c row hlit hbit
    have hflag : (m.screen.place d).2 = true := hcollides.2 ⟨c, row, hlit, hbit⟩
    exact (get_setFlag _ _).trans (if_pos hflag)
  · intro hnone
    have hflag : (m.screen.place d).2 = false := by
      rw [Bool.eq_false_iff]
      intro htrue
      obtain ⟨c, row, hlit, hbit⟩ := hcollides.1 htrue
      exact Bool.false_ne_true ((hnone c row hlit).symm.trans hbit)
    rw [hflag]
    exact get_setFlag _ false
  · intro k hk
    exact (get_setRegister _ 15 _ k).trans (if_neg hk.symm)

lemma drawsPlainly_of_le (hn : m.next? = some (.draw x y height))
    (h : m.index.toNat + m.visibleRows y height ≤ 4096) (beyond : Nat → UInt8) :
    m.DrawsPlainly ⟨m.v.get x, m.v.get y, m.memory.stretch beyond m.index.toNat height.val⟩
      m.step := by
  obtain ⟨w, -, hstep⟩ := step_of_next? hn
  rw [hstep, issue, execute_draw_of_le h beyond rfl]
  exact drawsPlainly_place m _ _

/-- If all the rows of a sprite are in memory, a step that draws it fetches and draws them all. If only
those that fall on the screen are, it goes well all the same and does what it would do in a memory that
went on past its end, whatever came there. -/
theorem draws_plainly (hn : m.next? = some (.draw x y height)) :
    (m.index.toNat + height.val ≤ 4096 → ∃ rows, m.memory.read m.index height.val = .ok rows ∧
      rows = (List.range' m.index.toNat height.val).map m.memory.byte ∧
      m.DrawsPlainly ⟨m.v.get x, m.v.get y, rows⟩ m.step) ∧
    (m.index.toNat + min height.val (32 - (m.v.get y).toNat % 32) ≤ 4096 →
      ∀ beyond, m.DrawsPlainly
        ⟨m.v.get x, m.v.get y, m.memory.stretch beyond m.index.toNat height.val⟩ m.step) := by
  constructor
  · intro hall
    have hvisible : m.visibleRows y height ≤ height.val := Nat.min_le_left _ _
    have hread := Memory.read_of_le m.memory hall
    have hrows := hread.symm.trans (m.memory.read_eq_stretch hall fun _ => 0)
    refine ⟨_, hread, rfl, ?_⟩
    rw [Except.ok.inj hrows]
    exact drawsPlainly_of_le hn (by omega) fun _ => 0
  · intro hvisible
    exact drawsPlainly_of_le hn hvisible

/-- The next instruction draws the two topmost rows of a digit of the font. -/
def beforeDigit : Machine := (start ⟨fun _ => 0, 0⟩ {}).after [.load [0xf0, 0x29, 0xd0, 0x02], .step]

/-- The next instruction draws fifteen rows from the last two bytes of memory, two above the bottom. -/
def beforeLongSprite : Machine :=
  (start ⟨fun _ => 0, 0⟩ {}).after [.load [0x61, 0x1e, 0xaf, 0xfe, 0xdf, 0x1f], .step, .step]

theorem draws_plainly_past_end :
    (∃ rows, beforeDigit.memory.read beforeDigit.index 2 = .ok rows ∧ rows = [0xf0, 0x90] ∧
      beforeDigit.DrawsPlainly ⟨0, 0, rows⟩ beforeDigit.step) ∧
    beforeLongSprite.DrawsPlainly ⟨0, 30, beforeLongSprite.memory.stretch (fun _ => 0xff) 4094 15⟩
      beforeLongSprite.step := by
  have facts : beforeDigit.next? = some (.draw 0 0 2) ∧ beforeDigit.index.toNat = 0x50 ∧
      beforeDigit.v.get 0 = 0 ∧ (List.range' 0x50 2).map beforeDigit.memory.byte = [0xf0, 0x90] ∧
      beforeLongSprite.next? = some (.draw 15 1 15) ∧ beforeLongSprite.index.toNat = 4094 ∧
      beforeLongSprite.v.get 15 = 0 ∧ beforeLongSprite.v.get 1 = 30 := by
    decide +kernel
  obtain ⟨hnextDigit, hdigit, hcorner, hfont, hnextLong, hlong, hleft, htop⟩ := facts
  generalize beforeDigit = digit at *
  generalize beforeLongSprite = long at *
  constructor
  · obtain ⟨rows, hread, hrows, hdraws⟩ := (draws_plainly hnextDigit).1 (by rw [hdigit]; decide)
    rw [hcorner] at hdraws
    refine ⟨rows, hread, hrows.trans ?_, hdraws⟩
    rw [hdigit]
    exact hfont
  · have hdraws := (draws_plainly hnextLong).2 (by rw [hlong, htop]; decide) fun _ => 0xff
    rw [hleft, htop, hlong] at hdraws
    exact hdraws

end Machine

end ChipEight
