import ChipEight.Proofs.Decoding
import ChipEight.Proofs.TrapFree

/-! When a step fails and what it leaves behind. Of the instructions only returns, calls and the four
transfers from and to memory can fail, each for one reason; the rest of the failures come from the word
that is fetched. Whatever fails has changed nothing yet, so that only the program counter, the status
and the last failure tell the machine from what it was. -/
namespace ChipEight.Machine
open Instruction

/-- What the instruction fails with when it stands at `pc`. -/
def Refuses (m : Machine) (pc : UInt16) : Instruction → Failure → Prop
  | .ret, f => f = .stackUnderflow pc ∧ m.stack.depth.val = 0
  | .call _, f => f = .stackOverflow pc ∧ m.stack.depth.val = 16
  | .draw _ y n, f => f = .outOfBounds (max m.index.toNat 4096) ∧
      4096 < m.index.toNat + min n.val (32 - (m.v.get y).toNat % 32)
  | .storeDecimal _, f => f = .outOfBounds (max m.index.toNat 4096) ∧ 4096 < m.index.toNat + 3
  | .storeBlock last, f | .loadBlock last, f => f = .outOfBounds (max m.index.toNat 4096) ∧
      4096 < m.index.toNat + (last.val + 1)
  | _, _ => False

variable {m : Machine}

theorem execute_eq_error_iff (m : Machine) (pc : UInt16) (i : Instruction) (f : Failure) :
    execute pc i m = .error f ↔ m.Refuses pc i f := by
  cases i with
  | ret =>
    simp only [execute, Refuses]
    cases hp : m.stack.pop? with
    | none =>
      have hd := (CallStack.pop?_eq_none_iff m.stack).1 hp
      simp [hd, eq_comm]
    | some p =>
      have hd : m.stack.depth.val ≠ 0 := by
        intro hd
        rw [(CallStack.pop?_eq_none_iff m.stack).2 hd] at hp
        cases hp
      simp [hd]
  | call a =>
    simp only [execute, Refuses]
    cases hp : m.stack.push? m.pc with
    | none =>
      have hd := (CallStack.push?_eq_none_iff m.stack m.pc).1 hp
      simp [hd, eq_comm]
    | some stack =>
      have hd : m.stack.depth.val ≠ 16 := by
        intro hd
        rw [(CallStack.push?_eq_none_iff m.stack m.pc).2 hd] at hp
        cases hp
      simp [hd]
  | draw x y n =>
    simp only [execute, map_eq_error_iff, Memory.read_eq_error_iff, Refuses]
    rfl
  | storeDecimal x =>
    simp only [execute, map_eq_error_iff, Memory.write_eq_error_iff, Refuses]
    rfl
  | storeBlock last =>
    have hlen := Action.length_take_registers m.v last
    simp only [execute, map_eq_error_iff, Memory.write_eq_error_iff, Refuses, hlen]
  | loadBlock last =>
    simp only [execute, map_eq_error_iff, Memory.read_eq_error_iff, Refuses]
  | waitKey x =>
    simp only [execute, Refuses]
    cases m.keypad.firstPressed <;> simp
  | _ => simp [execute, Refuses]

lemma isFatal_of_refuses {pc : UInt16} {i : Instruction} {f : Failure} (h : m.Refuses pc i f) :
    f.isFatal = true := by
  cases i with
  | ret | call _ | draw _ _ _ | storeDecimal _ | storeBlock _ | loadBlock _ =>
    obtain ⟨rfl, -⟩ := h
    rfl
  | _ => cases h

lemma result_issue_eq_error_iff (m : Machine) (w : UInt16) (i : Instruction) (f : Failure) :
    (m.issue w i).result = .error f ↔ m.Refuses m.pc i f := by
  have h : execute m.pc i m.advance = .error f ↔ m.Refuses m.pc i f := by
    rw [execute_eq_error_iff]
    cases i <;> rfl
  rw [← h]
  unfold issue
  cases execute m.pc i m.advance with
  | error g => simp [result_fail]
  | ok done => simp

theorem result_cycle_eq_error_iff (h : m.pc.toNat + 2 ≤ 4096) (f : Failure) :
    m.cycle.result = .error f ↔
      (f = .unknownOpcode (m.memory.wordAt m.pc.toNat) m.pc ∧
        ∀ i, encode i ≠ m.memory.wordAt m.pc.toNat) ∨
      ∃ i, encode i = m.memory.wordAt m.pc.toNat ∧ m.Refuses m.pc i f := by
  have hw := Memory.word_of_le m.memory h
  cases hd : decode? (m.memory.wordAt m.pc.toNat) with
  | none =>
    have hn := (decode?_eq_none_iff_encode _).1 hd
    rw [cycle_of_undecodable hw hd, result_fail]
    constructor
    · intro hf
      cases hf
      exact .inl ⟨rfl, hn⟩
    · intro hf
      rcases hf with ⟨rfl, -⟩ | ⟨i, hi, -⟩
      · rfl
      · exact absurd hi (hn i)
  | some i =>
    have hi := encode_of_decode? hd
    rw [cycle_of_decode hw hd, result_issue_eq_error_iff]
    constructor
    · intro hr
      exact .inr ⟨i, hi, hr⟩
    · intro hf
      rcases hf with ⟨-, hn⟩ | ⟨j, hj, hr⟩
      · exact absurd hi (hn i)
      · rw [(decode?_eq_some_iff_encode _ j).2 hj] at hd
        cases hd
        exact hr

/-- The word moves more bytes than there are from the index register on: a sprite row for every row
that is visible, three digits, or the registers up to the last one named. -/
def LeavesMemory (m : Machine) (w : UInt16) : Prop :=
  (∃ x y n, w = encode (.draw x y n) ∧
    4096 < m.index.toNat + min n.val (32 - (m.v.get y).toNat % 32)) ∨
  (∃ x, w = encode (.storeDecimal x) ∧ 4096 < m.index.toNat + 3) ∨
  ∃ last, (w = encode (.storeBlock last) ∨ w = encode (.loadBlock last)) ∧
    4096 < m.index.toNat + (last.val + 1)

structure AnswersTo (m : Machine) (w : UInt16) (result : Except Failure Unit) : Prop where
  unknownOpcode : ∀ w' pc, result = .error (.unknownOpcode w' pc) ↔
    w' = w ∧ pc = m.pc ∧ ∀ i, encode i ≠ w
  stackUnderflow : ∀ pc, result = .error (.stackUnderflow pc) ↔
    pc = m.pc ∧ w = 0x00ee ∧ m.stack.depth.val = 0
  stackOverflow : ∀ pc, result = .error (.stackOverflow pc) ↔
    pc = m.pc ∧ (∃ a, w = encode (.call a)) ∧ m.stack.depth.val = 16
  outOfBounds : ∀ a, result = .error (.outOfBounds a) ↔
    a = max m.index.toNat 4096 ∧ m.LeavesMemory w
  ok : result = .ok () ↔ (∃ i, encode i = w) ∧ ¬ (w = 0x00ee ∧ m.stack.depth.val = 0) ∧
    ¬ ((∃ a, w = encode (.call a)) ∧ m.stack.depth.val = 16) ∧ ¬ m.LeavesMemory w

lemma refuses_stackUnderflow_iff {pc pc' : UInt16} {w : UInt16} :
    (∃ i, encode i = w ∧ m.Refuses pc i (.stackUnderflow pc')) ↔
      pc' = pc ∧ w = 0x00ee ∧ m.stack.depth.val = 0 := by
  constructor
  · intro h
    obtain ⟨i, rfl, hr⟩ := h
    cases i with
    | ret =>
      obtain ⟨⟨⟩, hd⟩ := hr
      exact ⟨rfl, rfl, hd⟩
    | call _ | draw _ _ _ | storeDecimal _ | storeBlock _ | loadBlock _ => cases hr.1
    | _ => cases hr
  · intro h
    obtain ⟨rfl, rfl, hd⟩ := h
    exact ⟨.ret, rfl, rfl, hd⟩

lemma refuses_stackOverflow_iff {pc pc' : UInt16} {w : UInt16} :
    (∃ i, encode i = w ∧ m.Refuses pc i (.stackOverflow pc')) ↔
      pc' = pc ∧ (∃ a, w = encode (.call a)) ∧ m.stack.depth.val = 16 := by
  constructor
  · intro h
    obtain ⟨i, rfl, hr⟩ := h
    cases i with
    | call a =>
      obtain ⟨⟨⟩, hd⟩ := hr
      exact ⟨rfl, ⟨a, rfl⟩, hd⟩
    | ret | draw _ _ _ | storeDecimal _ | storeBlock _ | loadBlock _ => cases hr.1
    | _ => cases hr
  · intro h
    obtain ⟨rfl, ⟨a, rfl⟩, hd⟩ := h
    exact ⟨.call a, rfl, rfl, hd⟩

lemma refuses_outOfBounds_iff {pc : UInt16} {a : Nat} {w : UInt16} :
    (∃ i, encode i = w ∧ m.Refuses pc i (.outOfBounds a)) ↔
      a = max m.index.toNat 4096 ∧ m.LeavesMemory w := by
  constructor
  · intro h
    obtain ⟨i, rfl, hr⟩ := h
    cases i with
    | draw x y n =>
      obtain ⟨⟨⟩, hgt⟩ := hr
      exact ⟨rfl, .inl ⟨x, y, n, rfl, hgt⟩⟩
    | storeDecimal x =>
      obtain ⟨⟨⟩, hgt⟩ := hr
      exact ⟨rfl, .inr (.inl ⟨x, rfl, hgt⟩)⟩
    | storeBlock last =>
      obtain ⟨⟨⟩, hgt⟩ := hr
      exact ⟨rfl, .inr (.inr ⟨last, .inl rfl, hgt⟩)⟩
    | loadBlock last =>
      obtain ⟨⟨⟩, hgt⟩ := hr
      exact ⟨rfl, .inr (.inr ⟨last, .inr rfl, hgt⟩)⟩
    | ret | call _ => cases hr.1
    | _ => cases hr
  · intro h
    obtain ⟨rfl, ⟨x, y, n, rfl, hgt⟩ | ⟨x, rfl, hgt⟩ | ⟨last, rfl | rfl, hgt⟩⟩ := h
    · exact ⟨.draw x y n, rfl, rfl, hgt⟩
    · exact ⟨.storeDecimal x, rfl, rfl, hgt⟩
    · exact ⟨.storeBlock last, rfl, rfl, hgt⟩
    · exact ⟨.loadBlock last, rfl, rfl, hgt⟩

section
variable (h : m.pc.toNat + 2 ≤ 4096)
include h

lemma result_cycle_eq_unknownOpcode_iff (w pc : UInt16) :
    m.cycle.result = .error (.unknownOpcode w pc) ↔
      w = m.memory.wordAt m.pc.toNat ∧ pc = m.pc ∧
        ∀ i, encode i ≠ m.memory.wordAt m.pc.toNat := by
  rw [result_cycle_eq_error_iff h]
  constructor
  · intro hf
    rcases hf with ⟨⟨⟩, hn⟩ | ⟨i, -, hr⟩
    · exact ⟨rfl, rfl, hn⟩
    · cases isFatal_of_refuses hr
  · intro hf
    obtain ⟨rfl, rfl, hn⟩ := hf
    exact .inl ⟨rfl, hn⟩

lemma result_cycle_eq_stackUnderflow_iff (pc : UInt16) :
    m.cycle.result = .error (.stackUnderflow pc) ↔
      pc = m.pc ∧ m.memory.wordAt m.pc.toNat = 0x00ee ∧ m.stack.depth.val = 0 := by
  rw [result_cycle_eq_error_iff h, refuses_stackUnderflow_iff]
  exact or_iff_right fun hu => nomatch hu.1

lemma result_cycle_eq_stackOverflow_iff (pc : UInt16) :
    m.cycle.result = .error (.stackOverflow pc) ↔
      pc = m.pc ∧ (∃ a, m.memory.wordAt m.pc.toNat = encode (.call a)) ∧
        m.stack.depth.val = 16 := by
  rw [result_cycle_eq_error_iff h, refuses_stackOverflow_iff]
  exact or_iff_right fun hu => nomatch hu.1

lemma result_cycle_eq_outOfBounds_iff (a : Nat) :
    m.cycle.result = .error (.outOfBounds a) ↔
      a = max m.index.toNat 4096 ∧ m.LeavesMemory (m.memory.wordAt m.pc.toNat) := by
  rw [result_cycle_eq_error_iff h, refuses_outOfBounds_iff]
  exact or_iff_right fun hu => nomatch hu.1

lemma result_cycle_eq_ok_iff : m.cycle.result = .ok () ↔
    (∃ i, encode i = m.memory.wordAt m.pc.toNat) ∧
      ¬ (m.memory.wordAt m.pc.toNat = 0x00ee ∧ m.stack.depth.val = 0) ∧
      ¬ ((∃ a, m.memory.wordAt m.pc.toNat = encode (.call a)) ∧ m.stack.depth.val = 16) ∧
      ¬ m.LeavesMemory (m.memory.wordAt m.pc.toNat) := by
  constructor
  · intro hok
    have hno : ∀ f, m.cycle.result ≠ .error f := by
      intro f hf
      rw [hok] at hf
      cases hf
    refine ⟨?_, ?_, ?_, ?_⟩
    · apply Classical.byContradiction
      intro hn
      have hall : ∀ i, encode i ≠ m.memory.wordAt m.pc.toNat := fun i hi => hn ⟨i, hi⟩
      exact hno _ ((result_cycle_eq_unknownOpcode_iff h _ _).2 ⟨rfl, rfl, hall⟩)
    · intro hu
      exact hno _ ((result_cycle_eq_stackUnderflow_iff h _).2 ⟨rfl, hu⟩)
    · intro ho
      exact hno _ ((result_cycle_eq_stackOverflow_iff h _).2 ⟨rfl, ho⟩)
    · intro hb
      exact hno _ ((result_cycle_eq_outOfBounds_iff h _).2 ⟨rfl, hb⟩)
  · intro hnone
    obtain ⟨⟨i, hi⟩, hu, ho, hb⟩ := hnone
    cases hr : m.cycle.result with
    | ok u => rfl
    | error f =>
      rcases (result_cycle_eq_error_iff h f).1 hr with ⟨-, hn⟩ | ⟨j, -, hj⟩
      · exact absurd hi (hn i)
      · rcases (Failure.isFatal_iff f).1 (isFatal_of_refuses hj) with ⟨pc, rfl⟩ | ⟨pc, rfl⟩ | ⟨a, rfl⟩
        · exact absurd ((result_cycle_eq_stackOverflow_iff h pc).1 hr).2 ho
        · exact absurd ((result_cycle_eq_stackUnderflow_iff h pc).1 hr).2 hu
        · exact absurd ((result_cycle_eq_outOfBounds_iff h a).1 hr).2 hb

lemma answersTo_cycle : m.AnswersTo (m.memory.wordAt m.pc.toNat) m.cycle.result where
  unknownOpcode := result_cycle_eq_unknownOpcode_iff h
  stackUnderflow := result_cycle_eq_stackUnderflow_iff h
  stackOverflow := result_cycle_eq_stackOverflow_iff h
  outOfBounds := result_cycle_eq_outOfBounds_iff h
  ok := result_cycle_eq_ok_iff h

end

/-- What a failing step leaves: the fetch of the word is the only failure before the program counter
moves. -/
theorem machine_cycle_of_error {f : Failure} (h : m.cycle.result = .error f) : m.cycle.machine =
    { m with
      pc := if 4096 < m.pc.toNat + 2 then m.pc else m.pc + 2
      status := if f.isFatal then .faulted f else m.status
      lastFailure := some f } := by
  -- no failure of a step has a cause that its copy would lack
  have hfail : ∀ (n : Machine) (g : Failure), g.copy = g → (n.fail g).machine =
      { n with status := if g.isFatal then .faulted g else n.status, lastFailure := some g } := by
    intro n g hg
    unfold fail
    rw [hg]
    split <;> rfl
  by_cases hle : m.pc.toNat + 2 ≤ 4096
  · have hw := Memory.word_of_le m.memory hle
    rw [if_neg (Nat.not_lt.2 hle)]
    cases hd : decode? (m.memory.wordAt m.pc.toNat) with
    | none =>
      rw [cycle_of_undecodable hw hd] at h ⊢
      rw [result_fail] at h
      cases h
      exact hfail _ _ rfl
    | some i =>
      rw [cycle_of_decode hw hd, issue] at h ⊢
      cases he : execute m.pc i m.advance with
      | error g =>
        rw [he] at h
        simp only [result_fail] at h
        cases h
        have hg := isFatal_of_refuses ((execute_eq_error_iff _ _ _ _).1 he)
        exact hfail _ _ (Failure.copy_of_fatal hg)
      | ok done =>
        rw [he] at h
        cases h
  · have hgt := Nat.lt_of_not_le hle
    rw [cycle_of_word_error (Memory.word_of_gt m.memory hgt)] at h ⊢
    rw [result_fail] at h
    cases h
    rw [if_pos hgt]
    exact hfail _ _ rfl

lemma result_cycle_of_gt (h : 4096 < m.pc.toNat + 2) :
    m.cycle.result = .error (.outOfBounds (max m.pc.toNat 4096)) := by
  rw [cycle_of_word_error (Memory.word_of_gt m.memory h), result_fail]

/-- Exactly when a step fails, and with what. A fetch that is refused leaves the program counter on the
word, and every other failure comes behind it. -/
theorem step_fails_iff (m : Machine) :
    (m.status = .running →
      (m.step.result = .error (.outOfBounds (max m.pc.toNat 4096)) ∧ m.step.machine.pc = m.pc ↔
        4096 < m.pc.toNat + 2) ∧
      (m.pc.toNat + 2 ≤ 4096 → m.AnswersTo (m.memory.wordAt m.pc.toNat) m.step.result)) ∧
    ∀ x, m.status = .awaitingKey x → m.step.result = .ok () := by
  refine ⟨?_, ?_⟩
  · intro hs
    rw [step_of_running hs]
    refine ⟨⟨?_, ?_⟩, answersTo_cycle⟩
    · intro hr
      obtain ⟨hr, hpc⟩ := hr
      apply Classical.byContradiction
      intro hle
      rw [machine_cycle_of_error hr, if_neg hle] at hpc
      have := congrArg UInt16.toNat hpc
      simp only [UInt16.toNat_add, UInt16.reduceToNat] at this
      omega
    · intro hgt
      have hr := result_cycle_of_gt hgt
      rw [machine_cycle_of_error hr, if_pos hgt]
      exact ⟨hr, rfl⟩
  · intro x hs
    rw [step_of_awaiting hs]
    exact result_pollKey m x

/-- A machine that is about to draw five rows from the last byte of memory on. -/
def drawingAtEnd : Machine :=
  (start ⟨fun _ => 0, 0⟩ {}).after [.load [0xaf, 0xff, 0xd0, 0x15], .step]

def awaitingAtStart : Machine := (start ⟨fun _ => 0, 0⟩ {}).after [.load [0xf0, 0x0a], .step]

theorem step_fails_iff_draw_at_end :
    drawingAtEnd.step.result = .error (.outOfBounds 4096) ∧
      awaitingAtStart.step.result = .ok () := by
  constructor
  · have facts : drawingAtEnd.status = .running ∧ drawingAtEnd.pc.toNat = 0x202 ∧
        drawingAtEnd.index.toNat = 4095 ∧ drawingAtEnd.v.get 1 = 0 ∧
        drawingAtEnd.memory.wordAt drawingAtEnd.pc.toNat = encode (.draw 0 1 5) := by
      decide +kernel
    obtain ⟨hs, hpc, hindex, hv, hw⟩ := facts
    obtain ⟨-, hanswers⟩ := (step_fails_iff _).1 hs
    have haddress : 4096 = max drawingAtEnd.index.toNat 4096 := by omega
    refine ((hanswers (by omega)).outOfBounds 4096).2 ⟨haddress, .inl ⟨0, 1, 5, hw, ?_⟩⟩
    rw [hindex, hv]
    decide
  · have hs : awaitingAtStart.status = .awaitingKey 0 := by decide +kernel
    exact (step_fails_iff _).2 0 hs

/-- The address of a failure alone does not tell a refused fetch: the word lies in memory, and its sprite
is refused with the address that a fetch past the end would be refused with. -/
theorem refused_fetch_shares_its_address :
    drawingAtEnd.Reachable ∧ drawingAtEnd.status = .running ∧
      ¬ (drawingAtEnd.step.result = .error (.outOfBounds (max drawingAtEnd.pc.toNat 4096)) ↔
        4096 < drawingAtEnd.pc.toNat + 2) := by
  have facts : drawingAtEnd.status = .running ∧ drawingAtEnd.pc.toNat = 0x202 ∧
      drawingAtEnd.step.result = .error (.outOfBounds 4096) := by
    decide +kernel
  obtain ⟨hs, hpc, hfails⟩ := facts
  refine ⟨⟨_, _, _, rfl⟩, hs, ?_⟩
  rw [hpc, hfails]
  decide

lemma isFatal_or_unknownOpcode {f : Failure} (h : m.cycle.result = .error f) :
    f.isFatal = true ∨ m.pc.toNat + 2 ≤ 4096 ∧ ∃ w, f = .unknownOpcode w m.pc := by
  by_cases hle : m.pc.toNat + 2 ≤ 4096
  · obtain ⟨rfl, -⟩ | ⟨i, -, hr⟩ := (result_cycle_eq_error_iff hle f).1 h
    · exact .inr ⟨hle, _, rfl⟩
    · exact .inl (isFatal_of_refuses hr)
  · rw [result_cycle_of_gt (Nat.lt_of_not_le hle)] at h
    cases h
    exact .inl rfl

/-- A failing step of a running machine. Assignment by assignment it ends in the machine that it had
when it began but for the program counter, the status and the last failure; after a word that stands
for no instruction the next step goes on behind that word. -/
theorem failed_step_leaves_rest {m : Machine} (hm : m.Reachable) (hs : m.status = .running)
    {f : Failure} (h : m.step.result = .error f) :
    Stepwise.step m = .failed f m.step.machine ∧
      m.step.machine =
        { m with
          pc := if 4096 < m.pc.toNat + 2 then m.pc else m.pc + 2
          status := if f.isFatal then .faulted f else .running
          lastFailure := some f } ∧
      (m.step.machine.status = .faulted f ↔
        (∃ pc, f = .stackOverflow pc) ∨ (∃ pc, f = .stackUnderflow pc) ∨
          ∃ a, f = .outOfBounds a) ∧
      (m.step.machine.status ≠ .faulted f →
        (∃ w, f = .unknownOpcode w m.pc) ∧ m.step.machine.status = .running ∧
          m.step.machine.pc.toNat = m.pc.toNat + 2 ∧
          m.step.machine.step = cycle { m with pc := m.pc + 2, lastFailure := some f }) := by
  have hsteps : Stepwise.step m = .failed f m.step.machine := by
    rw [Stepwise.step_apply hm.sound, Stepwise.ofReply, h]
  have hcycle : m.cycle.result = .error f := by
    rw [← step_of_running hs]
    exact h
  have hmachine : m.step.machine =
      { m with
        pc := if 4096 < m.pc.toNat + 2 then m.pc else m.pc + 2
        status := if f.isFatal then .faulted f else .running
        lastFailure := some f } := by
    rw [step_of_running hs, machine_cycle_of_error hcycle, hs]
  have hfaulted : m.step.machine.status = .faulted f ↔ f.isFatal = true := by
    rw [hmachine]
    cases f.isFatal <;> simp
  refine ⟨hsteps, hmachine, hfaulted.trans (Failure.isFatal_iff f), ?_⟩
  intro hn
  obtain hfatal | ⟨hle, w, rfl⟩ := isFatal_or_unknownOpcode hcycle
  · exact absurd (hfaulted.2 hfatal) hn
  · rw [if_neg (Nat.not_lt.2 hle)] at hmachine
    rw [hmachine]
    refine ⟨⟨w, rfl⟩, rfl, ?_, ?_⟩
    · simp only [UInt16.toNat_add, UInt16.reduceToNat]
      omega
    · rw [step_of_running rfl, hs]
      rfl

/-- The sprite is refused as a whole, and the word of zeroes that a machine starts at is passed over. -/
theorem failed_step_leaves_rest_draw_at_end :
    drawingAtEnd.step.machine.screen = drawingAtEnd.screen ∧
      (start ⟨fun _ => 0, 0⟩ {}).step.machine.pc.toNat = 0x202 := by
  constructor
  · have facts : drawingAtEnd.status = .running ∧
        drawingAtEnd.step.result = .error (.outOfBounds 4096) := by
      decide +kernel
    obtain ⟨hs, h⟩ := facts
    have hm : drawingAtEnd.Reachable := ⟨_, _, _, rfl⟩
    obtain ⟨-, hmachine, -⟩ := failed_step_leaves_rest hm hs h
    rw [hmachine]
  · have facts : (start ⟨fun _ => 0, 0⟩ {}).step.result = .error (.unknownOpcode 0 0x200) ∧
        (start ⟨fun _ => 0, 0⟩ {}).step.machine.status ≠ .faulted (.unknownOpcode 0 0x200) := by
      decide +kernel
    obtain ⟨h, hstatus⟩ := facts
    obtain ⟨-, -, -, hgoes⟩ := failed_step_leaves_rest (.start _ _) rfl h
    exact (hgoes hstatus).2.2.1

end ChipEight.Machine
