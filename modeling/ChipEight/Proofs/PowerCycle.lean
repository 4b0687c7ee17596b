import ChipEight.Proofs.Devices
import ChipEight.Proofs.Hosting

/-! A reset is a new start. Whatever has been done to a machine, a reset makes it the machine that it was
when it was built, except that its random words go on where they are: for no operation moves the base
addresses or changes the dialect or the sequence of the words. So a program that is loaded after a reset
runs as it would on a new machine. -/
namespace ChipEight

namespace Memory

/-- The font, a program from `0x200` on, and zeroes. -/
def HoldsOnly (m : Memory) (program : List UInt8) : Prop :=
  ∀ a < 4096, m.byte a =
    if 0x200 ≤ a ∧ a < 0x200 + program.length then program[a - 0x200]?.getD 0
    else if 0x050 ≤ a ∧ a < 0x0a0 then font[a - 0x050]?.getD 0
    else 0

lemma holdsOnly_nil_fresh : fresh.HoldsOnly [] := by
  intro a ha
  have hprogram : ¬ (0x200 ≤ a ∧ a < 0x200 + ([] : List UInt8).length) := by
    simp only [List.length_nil]
    omega
  rw [byte_of_lt _ ha, if_neg hprogram]
  simp only [fresh, reset, UInt16.reduceToNat, getElem_put _ _ _ ha, Vector.getElem_replicate]
  by_cases hlo : 0x050 ≤ a
  · by_cases hhi : a < 0x0a0
    · rw [if_pos hlo, if_pos ⟨hlo, hhi⟩]
    · have hnone : font[a - 0x050]? = none := by
        rw [List.getElem?_eq_none_iff, length_font]
        omega
      rw [if_pos hlo, if_neg (fun h => hhi h.2), hnone]
      rfl
  · rw [if_neg hlo, if_neg (fun h => hlo h.1)]

lemma holdsOnly_of_put {m : Memory} (h : m.HoldsOnly []) (program : List UInt8) :
    HoldsOnly { m with bytes := put m.bytes 0x200 program } program := by
  intro a ha
  have hempty : ¬ (0x200 ≤ a ∧ a < 0x200 + ([] : List UInt8).length) := by
    simp only [List.length_nil]
    omega
  have hbefore := h a ha
  rw [if_neg hempty, byte_of_lt _ ha] at hbefore
  rw [byte_of_lt _ ha, getElem_put _ _ _ ha]
  by_cases hlo : 0x200 ≤ a
  · by_cases hhi : a < 0x200 + program.length
    · have hlt : a - 0x200 < program.length := by omega
      rw [if_pos hlo, if_pos ⟨hlo, hhi⟩, List.getElem?_eq_getElem hlt, Option.getD_some,
        Option.getD_some]
    · have hnone : program[a - 0x200]? = none := by
        rw [List.getElem?_eq_none_iff]
        omega
      have hbeyond : ¬ (0x200 ≤ a ∧ a < 0x200 + program.length) := fun h => hhi h.2
      rw [if_pos hlo, if_neg hbeyond, hnone]
      exact hbefore
  · have hbelow : ¬ (0x200 ≤ a ∧ a < 0x200 + program.length) := fun h => hlo h.1
    rw [if_neg hlo, if_neg hbelow]
    exact hbefore

end Memory

namespace Machine

/-- What a machine is built with and never loses. -/
structure SameMake (m m' : Machine) : Prop where
  dialect : m'.dialect = m.dialect
  word : m'.random.word = m.random.word

variable {m : Machine}

lemma sameMake_perform (hm : m.Sound) (op : Operation) : SameMake m (m.perform op).machine := by
  by_cases hreset : op = .reset
  · subst hreset
    simp only [perform, reset, resetState, start]
    exact ⟨rfl, rfl⟩
  · by_cases hstep : op = .step
    · subst hstep
      exact ⟨dialect_step m, word_step m⟩
    · have hsame := sameProcessor_perform hm hstep hreset
      exact ⟨hsame.dialect, congrArg RandomSource.word hsame.random⟩

theorem sameMake_after (hm : m.Sound) (ops : List Operation) : SameMake m (m.after ops) := by
  induction ops generalizing m with
  | nil => exact ⟨rfl, rfl⟩
  | cons op ops ih =>
    have hfirst := sameMake_perform hm op
    have hrest := ih (hm.perform op)
    exact ⟨hrest.dialect.trans hfirst.dialect, hrest.word.trans hfirst.word⟩

theorem resetState_of_sound (hm : m.Sound) : m.resetState = start m.random m.dialect := by
  have hmemory : m.memory.reset = Memory.fresh := by
    simp only [Memory.reset, Memory.fresh, hm.programBase, hm.fontBase]
  simp only [resetState, start, hmemory, hm.programBase]

/-- Reset, and reset assignment by assignment, make `m` the new machine `fresh`. -/
structure PowerCycled (m fresh : Machine) : Prop where
  reset : m.reset = ⟨.ok (), fresh, [.reset]⟩
  assigned : Stepwise.reset m = .done () fresh
  memory : fresh.memory.HoldsOnly []

/-- A program loaded after a reset of `m` goes as it does on the new machine `fresh`. -/
structure BootsAs (m fresh : Machine) (program : List UInt8) : Prop where
  results : (m.replies [.reset, .load program]).map (·.result) = [.ok (), .ok ()]
  memory : (m.after [.reset, .load program]).memory.HoldsOnly program
  replies : ∀ later, (m.after [.reset, .load program]).replies later =
    (fresh.after [.load program]).replies later
  after : ∀ later, (m.after [.reset, .load program]).after later =
    (fresh.after [.load program]).after later

lemma powerCycled_of_sound (hm : m.Sound) : PowerCycled m (start m.random m.dialect) := by
  have hreset : m.reset = ⟨.ok (), start m.random m.dialect, [.reset]⟩ := by
    rw [Machine.reset, resetState_of_sound hm]
  refine ⟨hreset, ?_, Memory.holdsOnly_nil_fresh⟩
  rw [Stepwise.reset_apply hm, hreset]
  rfl

lemma load_start (random : RandomSource) (dialect : Dialect) {program : List UInt8}
    (h : program.length ≤ 3584) : (start random dialect).load program =
      ⟨.ok (), { start random dialect with
        memory := { Memory.fresh with bytes := Memory.put Memory.fresh.bytes 0x200 program } },
        [.programLoaded program.length]⟩ := by
  have hfits : (start random dialect).memory.programBase.toNat + program.length ≤ 4096 := by
    change 0x200 + program.length ≤ 4096
    omega
  simp only [load, Memory.loadProgram, if_pos h, Memory.write_of_le _ hfits]
  rfl

lemma PowerCycled.bootsAs {random : RandomSource} {dialect : Dialect}
    (hm : PowerCycled m (start random dialect)) {program : List UInt8}
    (h : program.length ≤ 3584) : BootsAs m (start random dialect) program := by
  have hboots : m.after [.reset, .load program] = (start random dialect).after [.load program] := by
    change (m.reset.machine.load program).machine = ((start random dialect).load program).machine
    rw [hm.reset]
  refine ⟨?_, ?_, fun later => by rw [hboots], fun later => by rw [hboots]⟩
  · change [m.reset.result, (m.reset.machine.load program).result] = _
    rw [hm.reset, load_start random dialect h]
  · have hloaded : (m.after [.reset, .load program]).memory =
        { Memory.fresh with bytes := Memory.put Memory.fresh.bytes 0x200 program } := by
      rw [hboots]
      change ((start random dialect).load program).machine.memory = _
      rw [load_start random dialect h]
    rw [hloaded]
    exact Memory.holdsOnly_of_put hm.memory program

/-- From any history on: a reset gives the machine that was built in the beginning, with its random words
at the place that they have come to, and every program that fits runs on it as on a new machine. -/
theorem reset_is_new_start (random : RandomSource) (dialect : Dialect) (ops : List Operation) :
    let m := (start random dialect).after ops
    let fresh := start { random with position := m.random.position } dialect
    PowerCycled m fresh ∧ ∀ program, program.length ≤ 3584 → BootsAs m fresh program := by
  intro m fresh
  have hstart := sound_start random dialect
  have hmake : SameMake (start random dialect) m := sameMake_after hstart ops
  have hfresh : start m.random m.dialect = fresh := by
    have hrandom : m.random = { random with position := m.random.position } :=
      congrArg (fun word => RandomSource.mk word m.random.position) hmake.word
    rw [hmake.dialect, hrandom]
    rfl
  have hcycled : PowerCycled m fresh := hfresh ▸ powerCycled_of_sound (hstart.after ops)
  exact ⟨hcycled, fun program h => hcycled.bootsAs h⟩

def drawThenReturn : List Operation := [.load [0xc0, 0xff, 0x00, 0xee], .step, .step]

/-- The faulted machine is as good as new, but the next random word is the second one. -/
theorem reset_is_new_start_after_fault :
    ((start ⟨UInt32.ofNat, 0⟩ {}).after drawThenReturn).isFaulted = true ∧
      BootsAs ((start ⟨UInt32.ofNat, 0⟩ {}).after drawThenReturn) (start ⟨UInt32.ofNat, 1⟩ {})
        [0xc1, 0xff] ∧
      (((start ⟨UInt32.ofNat, 0⟩ {}).after drawThenReturn).after
        [.reset, .load [0xc1, 0xff], .step]).v.get 1 = 1 := by
  have facts : ((start ⟨UInt32.ofNat, 0⟩ {}).after drawThenReturn).isFaulted = true ∧
      ((start ⟨UInt32.ofNat, 0⟩ {}).after drawThenReturn).random.position = 1 ∧
      (((start ⟨UInt32.ofNat, 0⟩ {}).after drawThenReturn).after
        [.reset, .load [0xc1, 0xff], .step]).v.get 1 = 1 := by
    decide +kernel
  obtain ⟨hfaulted, hposition, hdrawn⟩ := facts
  obtain ⟨-, hboots⟩ := reset_is_new_start ⟨UInt32.ofNat, 0⟩ {} drawThenReturn
  have hboot := hboots [0xc1, 0xff] (by decide)
  rw [hposition] at hboot
  exact ⟨hfaulted, hboot, hdrawn⟩

end Machine

end ChipEight
