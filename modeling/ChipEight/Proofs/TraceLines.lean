import ChipEight.Proofs.AssemblerLines
import ChipEight.Proofs.StepCases
import Mathlib.Data.List.Forall2

/-! The mnemonics in a log. There is one for each word that a step sets out to execute, in order, and it
is the line of that word. Since no two words share a line, the mnemonics of a whole history tell which
words it was made of. -/
namespace ChipEight

/-- The mnemonic that an event tells of; the record of a word ends with it. -/
def Event.mnemonic? : Event → Option String
  | .executing _ _ i => some i.mnemonic.text
  | _ => none

def mnemonicsIn (log : List Event) : List String := log.filterMap Event.mnemonic?

namespace Instruction

/-- The line of a word, which has one if it is the word of an instruction. -/
def IsLine (w : UInt16) (line : String) : Prop := ∃ i, decode? w = some i ∧ i.mnemonic.text = line

lemma isLine_biUnique : Relator.BiUnique IsLine := by
  constructor
  · rintro v w _ ⟨i, hi, rfl⟩ ⟨j, hj, htext⟩
    rw [mnemonic_text_injective htext] at hj
    rw [← encode_of_decode? hi, encode_of_decode? hj]
  · rintro w _ _ ⟨i, hi, rfl⟩ ⟨j, hj, rfl⟩
    rw [hi, Option.some.injEq] at hj
    rw [hj]

end Instruction

namespace Machine
open Instruction

/-- The word that an operation sets out to execute, which may fail. Only a step that comes to decode an
instruction has one. -/
def issued? (m : Machine) : Operation → Option UInt16
  | .step => m.next?.map fun _ => m.memory.wordAt m.pc.toNat
  | _ => none

def issued (m : Machine) : List Operation → List UInt16
  | [] => []
  | op :: ops => (m.issued? op).toList ++ issued (m.perform op).machine ops

variable {m : Machine}

lemma mnemonicsIn_fail (m : Machine) (f : Failure) : mnemonicsIn (m.fail f).log = [] := by
  unfold fail
  split <;> rfl

lemma mnemonicsIn_waitNotice (m : Machine) : mnemonicsIn m.waitNotice = [] := by
  unfold waitNotice
  cases m.status <;> rfl

/-- Whether the instruction fails or not, its mnemonic is told of before it is executed. -/
lemma mnemonicsIn_issue (m : Machine) (w : UInt16) (i : Instruction) :
    mnemonicsIn (m.issue w i).log = [i.mnemonic.text] := by
  rw [issue]
  cases execute m.pc i m.advance with
  | error f => exact congrArg (i.mnemonic.text :: ·) (mnemonicsIn_fail m.advance f)
  | ok done => exact congrArg (i.mnemonic.text :: ·) (mnemonicsIn_waitNotice done)

lemma issued?_of_next?_none (h : m.next? = none) : m.issued? .step = none := by
  rw [issued?, h, Option.map_none]

lemma mnemonicsIn_step_of_next?_none (h : m.next? = none) : mnemonicsIn m.step.log = [] := by
  cases hs : m.status with
  | running =>
    rw [step_of_running hs]
    cases hw : m.memory.word m.pc with
    | error f =>
      rw [cycle_of_word_error hw]
      exact mnemonicsIn_fail m f
    | ok w =>
      cases hd : decode? w with
      | none =>
        rw [cycle_of_undecodable hw hd]
        exact mnemonicsIn_fail m.advance _
      | some i =>
        rw [(next?_eq_some_iff m i).2 ⟨hs, w, hw, hd⟩] at h
        cases h
  | awaitingKey x =>
    rw [step_of_awaiting hs, pollKey]
    cases m.keypad.firstPressed <;> rfl
  | faulted f =>
    rw [step_of_faulted hs]
    rfl

lemma lines_step (m : Machine) :
    List.Forall₂ IsLine (m.issued? .step).toList (mnemonicsIn m.step.log) := by
  cases hn : m.next? with
  | some i =>
    obtain ⟨w, hw, hstep⟩ := step_of_next? hn
    obtain ⟨-, v, hv, hd⟩ := (next?_eq_some_iff m i).1 hn
    rw [hv] at hw
    cases hw
    obtain ⟨-, rfl⟩ := (Memory.word_eq_ok_iff _ _ _).1 hv
    rw [hstep, mnemonicsIn_issue, issued?, hn]
    exact .cons ⟨i, hd, rfl⟩ .nil
  | none =>
    rw [issued?_of_next?_none hn, mnemonicsIn_step_of_next?_none hn]
    exact .nil

theorem lines_perform (m : Machine) (op : Operation) :
    List.Forall₂ IsLine (m.issued? op).toList (mnemonicsIn (m.perform op).log) := by
  have hquiet (h : mnemonicsIn (m.perform op).log = []) :
      List.Forall₂ IsLine [] (mnemonicsIn (m.perform op).log) := by
    rw [h]
    exact .nil
  cases op with
  | step => exact lines_step m
  | reset | tick => exact .nil
  | load program =>
    refine hquiet ?_
    simp only [perform, load]
    cases m.memory.loadProgram program with
    | ok _ => rfl
    | error f => exact mnemonicsIn_fail m f
  | loadFrom chunks =>
    refine hquiet ?_
    simp only [perform, loadFrom]
    cases m.memory.loadProgramFrom chunks with
    | ok _ => rfl
    | error f => exact mnemonicsIn_fail m f
  | setKey index pressed =>
    refine hquiet ?_
    simp only [perform, setKey]
    cases m.keypad.set index pressed with
    | ok _ => rfl
    | error f => exact mnemonicsIn_fail m f

theorem lines_logOf (m : Machine) (ops : List Operation) :
    List.Forall₂ IsLine (m.issued ops) (mnemonicsIn (m.logOf ops)) := by
  induction ops generalizing m with
  | nil => exact .nil
  | cons op ops ih =>
    have hlog : mnemonicsIn (m.logOf (op :: ops)) =
        mnemonicsIn (m.perform op).log ++ mnemonicsIn ((m.perform op).machine.logOf ops) := by
      rw [logOf, replies, List.flatMap_cons, mnemonicsIn, List.filterMap_append]
      rfl
    rw [hlog, issued]
    exact List.rel_append (lines_perform m op) (ih _)

/-- No two instructions have the same mnemonic, and no two words that decode. The mnemonics in the log of
a history are the lines of the words that it sets out to execute, in order, so two histories of any
machines with the same mnemonics have executed the same words. -/
theorem mnemonics_are_unambiguous :
    (∀ i j : Instruction, i.mnemonic.text = j.mnemonic.text ↔ i = j) ∧
      (∀ w v i j, decode? w = some i → decode? v = some j →
        (i.mnemonic.text = j.mnemonic.text ↔ w = v)) ∧
      ∀ (m n : Machine) (ops later : List Operation),
        List.Forall₂ IsLine (m.issued ops) (mnemonicsIn (m.logOf ops)) ∧
          (mnemonicsIn (m.logOf ops) = mnemonicsIn (n.logOf later) ↔
            m.issued ops = n.issued later) := by
  refine ⟨?_, ?_, ?_⟩
  · intro i j
    exact ⟨mnemonic_text_injective, congrArg (Mnemonic.text ∘ mnemonic)⟩
  · intro w v i j hi hj
    constructor
    · intro htext
      exact isLine_biUnique.1 ⟨i, hi, htext⟩ ⟨j, hj, rfl⟩
    · rintro rfl
      exact isLine_biUnique.2 ⟨i, hi, rfl⟩ ⟨j, hj, rfl⟩
  · intro m n ops later
    have hm := lines_logOf m ops
    have hn := lines_logOf n later
    refine ⟨hm, ?_, ?_⟩
    · intro hlog
      rw [hlog] at hm
      exact isLine_biUnique.forall₂.1 hm hn
    · intro hwords
      rw [hwords] at hm
      exact isLine_biUnique.forall₂.2 hm hn

end Machine

end ChipEight
