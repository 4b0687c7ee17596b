import ChipEight.Proofs.WriteSets

/-! Where the random words go. Every executed instruction that asks for one takes the next, whatever its
mask, and nothing else takes any, a reset included. So the source is as many words on as there have been
such instructions since the machine was built, and the instruction after `k` of them gets word `k`. -/
namespace ChipEight

def Instruction.isRandom : Instruction → Bool
  | .random _ _ => true
  | _ => false

/-- The source with `n` more words taken. -/
def RandomSource.drop (r : RandomSource) (n : Nat) : RandomSource :=
  { r with position := r.position + n }

namespace Machine

/-- The instruction that an operation executes. Only a step executes one, and neither a step that fails nor
one that is spent on a wait does. -/
def executed? (m : Machine) : Operation → Option Instruction
  | .step =>
    match m.step.result with
    | .ok () => m.next?
    | .error _ => none
  | _ => none

def executed (m : Machine) : List Operation → List Instruction
  | [] => []
  | op :: ops => (m.executed? op).toList ++ executed (m.perform op).machine ops

/-- How many of them take a random word. -/
def randomCount (m : Machine) (ops : List Operation) : Nat :=
  (m.executed ops).countP Instruction.isRandom

variable {m : Machine}

lemma randomAfter_eq (m : Machine) (i : Instruction) :
    m.randomAfter i = m.random.drop ([i].countP Instruction.isRandom) := by
  cases i <;> rfl

lemma random_step (m : Machine) :
    m.step.machine.random = m.random.drop ((m.executed? .step).toList.countP Instruction.isRandom) := by
  have hcase := step_cases m
  unfold executed?
  generalize m.step = r at hcase ⊢
  cases hcase with
  | stuck _ | failed _ => rfl
  | idle status _ | resumed status _ =>
    simp only [next?_of_not_running (m := m) (by rw [status]; nofun)]
    rfl
  | @executed w i done _ next _ he =>
    obtain ⟨-, hrandom⟩ := execute_devices he
    simp only [next, Option.toList_some]
    exact hrandom.trans (randomAfter_eq m.advance i)

theorem random_perform (hm : m.Sound) (op : Operation) :
    (m.perform op).machine.random =
      m.random.drop ((m.executed? op).toList.countP Instruction.isRandom) := by
  have hhost (hstep : op ≠ .step) (hreset : op ≠ .reset) :
      (m.perform op).machine.random = m.random.drop 0 :=
    (sameProcessor_perform hm hstep hreset).random
  cases op with
  | step => exact random_step m
  | reset => rfl
  | load _ | loadFrom _ | tick | setKey _ _ => exact hhost nofun nofun

theorem random_after (hm : m.Sound) (ops : List Operation) :
    (m.after ops).random = m.random.drop (m.randomCount ops) := by
  induction ops generalizing m with
  | nil => rfl
  | cons op ops ih =>
    have hcount : m.randomCount (op :: ops) =
        (m.executed? op).toList.countP Instruction.isRandom +
          (m.perform op).machine.randomCount ops := by
      rw [randomCount, executed, List.countP_append, randomCount]
    calc (m.after (op :: ops)).random
        = (m.perform op).machine.random.drop ((m.perform op).machine.randomCount ops) :=
          ih (hm.perform op)
      _ = m.random.drop (m.randomCount (op :: ops)) := by
          rw [random_perform hm, hcount, RandomSource.drop, RandomSource.drop, Nat.add_assoc]
          rfl

lemma registers_of_random {x : Register} {mask : UInt8} (hn : m.next? = some (.random x mask)) :
    m.step.result = .ok () ∧
      m.step.machine.v.get x = (m.random.word m.random.position).toUInt8 &&& mask ∧
      ∀ y, y ≠ x → m.step.machine.v.get y = m.v.get y := by
  have hok : m.step.result = .ok () := by
    obtain ⟨w, -, hstep⟩ := step_of_next? hn
    rw [hstep]
    rfl
  have h := execute_of_next? hn hok
  refine ⟨hok, ?_, ?_⟩
  · rw [← Except.ok.inj h, get_setRegister, if_pos rfl]
    rfl
  · intro y hy
    refine (execute_spares h).register y ?_
    simpa [Instruction.writes] using hy

/-- After any history from a new machine on as many words are gone as instructions have asked for one. The
next such instruction goes well, keeps the low byte of the word whose number that is under its mask, and
writes no other register; an operation that executes no such instruction takes no word. -/
theorem random_words_go_in_order (random : RandomSource) (dialect : Dialect)
    (ops : List Operation) :
    let m := (start random dialect).after ops
    let k := (start random dialect).randomCount ops
    m.random = random.drop k ∧
      (∀ x mask, m.next? = some (.random x mask) →
        m.step.result = .ok () ∧ m.step.machine.random = random.drop (k + 1) ∧
          (m.step.machine.v.get x).toNat =
            ((random.word (random.position + k)).toNat % 256) &&& mask.toNat ∧
          ∀ y, y ≠ x → m.step.machine.v.get y = m.v.get y) ∧
      ∀ op, (∀ x mask, m.executed? op ≠ some (.random x mask)) →
        (m.perform op).machine.random = m.random := by
  intro m k
  have hm : m.Sound := (sound_start random dialect).after ops
  have hrandom : m.random = random.drop k := random_after (sound_start random dialect) ops
  refine ⟨hrandom, ?_, ?_⟩
  · intro x mask hn
    obtain ⟨hok, hx, hother⟩ := registers_of_random hn
    have hexecuted : m.executed? .step = some (.random x mask) := by
      simp only [executed?, hok, hn]
    refine ⟨hok, ?_, ?_, hother⟩
    · rw [random_step, hexecuted, hrandom]
      rfl
    · rw [hx, hrandom, UInt8.toNat_and, UInt32.toNat_toUInt8]
      rfl
  · intro op hop
    have hnone : (m.executed? op).toList.countP Instruction.isRandom = 0 := by
      cases hi : m.executed? op with
      | none => rfl
      | some i =>
        cases i with
        | random x mask => exact absurd hi (hop x mask)
        | _ => rfl
    rw [random_perform hm, hnone]
    rfl

/-- Two words are taken, one of them for nothing, and an unknown word and a reset take none. -/
def thirdDraw : List Operation :=
  [.load [0xc0, 0xff, 0xc1, 0x00, 0xff, 0xff], .step, .step, .step, .reset, .load [0xc2, 0x0f]]

theorem random_words_go_in_order_third_draw :
    ((start ⟨fun k => UInt32.ofNat (0x135 + k), 0⟩ {}).after thirdDraw).random.position = 2 ∧
      (((start ⟨fun k => UInt32.ofNat (0x135 + k), 0⟩ {}).after thirdDraw).step.machine.v.get
        2).toNat = 7 ∧
      (((start ⟨fun k => UInt32.ofNat (0x135 + k), 0⟩ {}).after thirdDraw).perform
        (.setKey 16 true)).machine.random.position = 2 := by
  have facts : (start ⟨fun k => UInt32.ofNat (0x135 + k), 0⟩ {}).randomCount thirdDraw = 2 ∧
      ((start ⟨fun k => UInt32.ofNat (0x135 + k), 0⟩ {}).after thirdDraw).next? =
        some (.random 2 0x0f) := by
    decide +kernel
  obtain ⟨hcount, hnext⟩ := facts
  obtain ⟨hrandom, hdraw, hother⟩ :=
    random_words_go_in_order ⟨fun k => UInt32.ofNat (0x135 + k), 0⟩ {} thirdDraw
  obtain ⟨-, -, hv, -⟩ := hdraw 2 0x0f hnext
  have hposition := congrArg RandomSource.position hrandom
  rw [hcount] at hposition hv
  refine ⟨hposition, hv, ?_⟩
  rw [hother (.setKey 16 true) fun _ _ h => by cases h]
  exact hposition

end Machine

end ChipEight
