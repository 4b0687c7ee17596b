import ChipEight.Proofs.Asides
import Mathlib.Data.List.Infix

/-! What the dialect of a machine decides. Two dialects are told apart by a shift of two different bytes and
by a block transfer that goes well, and by no other step. As long as none of these is executed, machines of
different dialects go through a history in lockstep, errors and logs included. What a transfer makes of the
difference is the size of the block between the two index registers. -/
namespace ChipEight.Machine

def withDialect (m : Machine) (d : Dialect) : Machine := { m with dialect := d }

/-- The instruction, if the next step executes it, does not do the same in the dialect `d`. -/
def tellsApart (m : Machine) (d : Dialect) : Instruction → Bool
  | .combine .shiftRight x y | .combine .shiftLeft x y =>
    d.shiftsSecond != m.dialect.shiftsSecond && m.v.get x != m.v.get y
  | .storeBlock _ | .loadBlock _ =>
    d.transferAdvances != m.dialect.transferAdvances && m.step.result.isOk
  | _ => false

def NeverTellsApart (m : Machine) (d : Dialect) (ops : List Operation) : Prop :=
  ∀ before, before ++ [.step] <+: ops → ∀ i, (m.after before).next? = some i →
    (m.after before).tellsApart d i = false

variable {m : Machine} {d : Dialect}

lemma shiftOperand_congr {a b : UInt8}
    (h : (d.shiftsSecond != m.dialect.shiftsSecond && a != b) = false) :
    shiftOperand d a b = shiftOperand m.dialect a b := by
  rw [Bool.and_eq_false_iff, bne_eq_false_iff_eq, bne_eq_false_iff_eq] at h
  obtain hsame | rfl := h
  · rw [shiftOperand, shiftOperand, hsame]
  · rw [shiftOperand, shiftOperand, ite_self, ite_self]

lemma indexAfter_withDialect (h : d.transferAdvances = m.dialect.transferAdvances)
    (last : Register) : (m.withDialect d).indexAfter last = m.indexAfter last := by
  change (if d.transferAdvances then _ else _) = _
  rw [h]
  rfl

lemma overlooks_of_tellsApart_eq_false {i : Instruction} (h : m.tellsApart d i = false)
    (hok : m.step.result = .ok ()) : m.Overlooks { dialect := fun _ => d } i := by
  have htransfer (h : (d.transferAdvances != m.dialect.transferAdvances && m.step.result.isOk) =
      false) : d.transferAdvances = m.dialect.transferAdvances := by
    rw [hok, Except.isOk, Except.toBool, Bool.and_true, bne_eq_false_iff_eq] at h
    exact h
  cases i with
  | combine op x y =>
    cases op with
    | shiftRight | shiftLeft =>
      have hshift := shiftOperand_congr h
      simp only [Overlooks, BinaryOp.compute, hshift]
    | _ => rfl
  | storeBlock last => exact ⟨(id_map _).symm, indexAfter_withDialect (htransfer h) last⟩
  | loadBlock last => exact ⟨rfl, indexAfter_withDialect (htransfer h) last⟩
  | skip c => cases c <;> rfl
  | storeDecimal x => exact (id_map _).symm
  | waitKey _ | getDelay _ | setDelay _ | setSound _ | loadGlyph _ | draw _ _ _ => rfl
  | _ => trivial

/-- Whether an instruction is refused does not depend on the dialect. -/
lemma refuses_withDialect (pc : UInt16) (i : Instruction) (f : Failure) :
    (m.withDialect d).Refuses pc i f ↔ m.Refuses pc i f := by
  cases i <;> rfl

theorem step_withDialect (h : ∀ i, m.next? = some i → m.tellsApart d i = false) :
    (m.withDialect d).step = m.step.map (·.withDialect d) := by
  refine step_of_aside (aside_alter { dialect := fun _ => d }) ?_ rfl ?_
  · exact fun x _ => pollKey_alter rfl x
  · intro i hi
    cases he : execute m.pc i m.advance with
    | error f =>
      rw [execute_eq_error_iff] at he
      exact (execute_eq_error_iff _ _ _ _).2 ((refuses_withDialect m.pc i f).2 he)
    | ok done =>
      rw [← he]
      have hok : m.step.result = .ok () := by
        obtain ⟨w, -, hstep⟩ := step_of_next? hi
        rw [hstep, issue, he]
      exact execute_alter (m := m.advance)
        (overlooks_of_tellsApart_eq_false (m := m) (h i hi) hok) m.pc

theorem perform_withDialect {op : Operation}
    (h : op = .step → ∀ i, m.next? = some i → m.tellsApart d i = false) :
    (m.withDialect d).perform op = (m.perform op).map (·.withDialect d) := by
  have hfail (f : Failure) : (m.withDialect d).fail f = (m.fail f).map (·.withDialect d) :=
    (aside_alter { dialect := fun _ => d }).fail m f
  cases op with
  | step => exact step_withDialect (h rfl)
  | reset | tick => rfl
  | load program =>
    have hmemory : (m.withDialect d).memory = m.memory := rfl
    simp only [perform, load, hmemory]
    cases m.memory.loadProgram program with
    | ok _ => rfl
    | error f => exact hfail f
  | loadFrom chunks =>
    have hmemory : (m.withDialect d).memory = m.memory := rfl
    simp only [perform, loadFrom, hmemory]
    cases m.memory.loadProgramFrom chunks with
    | ok _ => rfl
    | error f => exact hfail f
  | setKey index pressed =>
    have hkeypad : (m.withDialect d).keypad = m.keypad := rfl
    simp only [perform, setKey, hkeypad]
    cases m.keypad.set index pressed with
    | ok _ => rfl
    | error f => exact hfail f

lemma NeverTellsApart.first {op : Operation} {ops : List Operation}
    (h : m.NeverTellsApart d (op :: ops)) :
    op = .step → ∀ i, m.next? = some i → m.tellsApart d i = false := by
  rintro rfl
  exact h [] (List.cons_prefix_cons.2 ⟨rfl, List.nil_prefix⟩)

lemma NeverTellsApart.rest {op : Operation} {ops : List Operation}
    (h : m.NeverTellsApart d (op :: ops)) : (m.perform op).machine.NeverTellsApart d ops :=
  fun before hb => h (op :: before) (List.cons_prefix_cons.2 ⟨rfl, hb⟩)

theorem replies_withDialect {ops : List Operation} (h : m.NeverTellsApart d ops) :
    (m.withDialect d).replies ops = (m.replies ops).map (.map (·.withDialect d)) := by
  induction ops generalizing m with
  | nil => rfl
  | cons op ops ih =>
    rw [replies, replies, List.map_cons, perform_withDialect h.first]
    exact congrArg ((m.perform op).map (·.withDialect d) :: ·) (ih h.rest)

theorem after_withDialect {ops : List Operation} (h : m.NeverTellsApart d ops) :
    (m.withDialect d).after ops = (m.after ops).withDialect d := by
  induction ops generalizing m with
  | nil => rfl
  | cons op ops ih =>
    change ((m.withDialect d).perform op).machine.after ops = _
    rw [perform_withDialect h.first]
    exact ih h.rest

/-- The machine of a dialect that advances, where `m` is that of one that does not. -/
def advanced (m : Machine) (d : Dialect) (last : Register) : Machine :=
  { m with dialect := d, index := m.index + UInt16.ofNat (last.val + 1) }

lemma indexAfter_of_advances (hoff : m.dialect.transferAdvances = false)
    (hon : d.transferAdvances = true) (last : Register) :
    (m.withDialect d).indexAfter last = m.indexAfter last + UInt16.ofNat (last.val + 1) := by
  have hd : (m.withDialect d).dialect = d := rfl
  rw [indexAfter, indexAfter, hoff, hd, hon]
  rfl

lemma execute_advanced (hoff : m.dialect.transferAdvances = false)
    (hon : d.transferAdvances = true) {i : Instruction} {last : Register}
    (hi : i = .storeBlock last ∨ i = .loadBlock last) (pc : UInt16) :
    execute pc i (m.withDialect d) = (execute pc i m).map (·.advanced d last) := by
  have hindex := indexAfter_of_advances hoff hon last
  have hmemory : (m.withDialect d).memory = m.memory := rfl
  have hstart : (m.withDialect d).index = m.index := rfl
  have hv : (m.withDialect d).v = m.v := rfl
  obtain rfl | rfl := hi
  · simp only [execute, hindex, hmemory, hstart, hv]
    cases m.memory.write m.index (m.v.toList.take (last.val + 1)) <;> rfl
  · simp only [execute, hindex, hmemory, hstart]
    cases m.memory.read m.index (last.val + 1) <;> rfl

theorem step_advanced (hoff : m.dialect.transferAdvances = false)
    (hon : d.transferAdvances = true) {last : Register}
    (hnext : m.next? = some (.storeBlock last) ∨ m.next? = some (.loadBlock last))
    (hok : m.step.result = .ok ()) :
    (m.withDialect d).step = m.step.map (·.advanced d last) := by
  obtain ⟨i, hi, hlast⟩ : ∃ i, m.next? = some i ∧ (i = .storeBlock last ∨ i = .loadBlock last) := by
    obtain h | h := hnext
    · exact ⟨_, h, .inl rfl⟩
    · exact ⟨_, h, .inr rfl⟩
  have hs : m.status = .running := ((next?_eq_some_iff m i).1 hi).1
  have halong : GoesAlong (withDialect · d) (fun _ => (advanced · d last)) m := by
    refine (aside_alter { dialect := fun _ => d }).goesAlong (fun _ _ => rfl) hs rfl ?_
    intro j hj
    obtain rfl := Option.some.inj (hi.symm.trans hj)
    exact execute_advanced (m := m.advance) hoff hon hlast m.pc
  have hmachine := halong.executed i hi hok
  rw [reply_eq halong.result hmachine, halong.log]
  rfl

/-- Machines that are the same but for their dialects stay so, with the same answers and the same logs,
through every history in which no step tells the dialects apart. A transfer that goes well, where only one
of the dialects advances, leaves them the size of the block apart in the index and the same otherwise. -/
theorem dialect_reaches_only_shifts_and_transfers (m : Machine) (d : Dialect) :
    (∀ ops, m.NeverTellsApart d ops →
      (m.withDialect d).replies ops = (m.replies ops).map (.map (·.withDialect d)) ∧
        (m.withDialect d).after ops = (m.after ops).withDialect d) ∧
    (m.dialect.transferAdvances = false → d.transferAdvances = true → ∀ last,
      m.next? = some (.storeBlock last) ∨ m.next? = some (.loadBlock last) →
        m.step.result = .ok () →
          (m.withDialect d).step = m.step.map (·.advanced d last) ∧
            (m.withDialect d).step.machine.index.toNat =
              (m.step.machine.index.toNat + (last.val + 1)) % 65536) := by
  refine ⟨fun ops h => ⟨replies_withDialect h, after_withDialect h⟩, ?_⟩
  intro hoff hon last hnext hok
  have hstep := step_advanced hoff hon hnext hok
  refine ⟨hstep, ?_⟩
  rw [hstep]
  change (m.step.machine.index + UInt16.ofNat (last.val + 1)).toNat = _
  rw [UInt16.toNat_add, UInt16.toNat_ofNat', Nat.add_mod_mod]

/-- Shifts one of two equal registers and stores a block that leaves memory; then a new program is about to
store a block of three. -/
def failingThenStoring : List Operation :=
  [.load [0x61, 0x05, 0x62, 0x05, 0x81, 0x26, 0xaf, 0xff, 0xf1, 0x55], .step, .step, .step, .step,
    .step, .setKey 16 true, .reset, .load [0xa3, 0x00, 0xf2, 0x55], .step]

def storingNext (d : Dialect) : Machine := (start ⟨fun _ => 0, 0⟩ d).after failingThenStoring

theorem dialect_reaches_only_shifts_and_transfers_storing :
    storingNext ⟨true, true⟩ = (storingNext {}).withDialect ⟨true, true⟩ ∧
      (storingNext {}).step.machine.index.toNat = 0x300 ∧
      (storingNext ⟨true, true⟩).step.machine.index.toNat = 0x303 := by
  have facts : (∀ before ∈ failingThenStoring.inits,
        before.length = failingThenStoring.length ∨
        ((start ⟨fun _ => 0, 0⟩ {}).after before).next?.all (fun i =>
          !((start ⟨fun _ => 0, 0⟩ {}).after before).tellsApart ⟨true, true⟩ i) = true) ∧
      (storingNext {}).dialect.transferAdvances = false ∧
      (storingNext {}).next? = some (.storeBlock 2) ∧
      (storingNext {}).step.result = .ok () ∧
      (storingNext {}).step.machine.index.toNat = 0x300 := by
    decide +kernel
  obtain ⟨hall, hoff, hnext, hok, hindex⟩ := facts
  have hnever : (start ⟨fun _ => 0, 0⟩ {}).NeverTellsApart ⟨true, true⟩ failingThenStoring := by
    intro before hb i hi
    have hshorter := hb.length_le
    rw [List.length_append, List.length_singleton] at hshorter
    obtain h | h := hall before
      ((List.mem_inits _ _).2 ((List.prefix_append before [.step]).trans hb))
    · omega
    · rw [hi, Option.all_some, Bool.not_eq_true'] at h
      exact h
  obtain ⟨-, hsame⟩ :=
    (dialect_reaches_only_shifts_and_transfers (start ⟨fun _ => 0, 0⟩ {}) ⟨true, true⟩).1 _ hnever
  obtain ⟨-, hadvanced⟩ :=
    (dialect_reaches_only_shifts_and_transfers (storingNext {}) ⟨true, true⟩).2 hoff rfl 2
      (.inl hnext) hok
  have hstoring : storingNext ⟨true, true⟩ = (storingNext {}).withDialect ⟨true, true⟩ := hsame
  refine ⟨hstoring, hindex, ?_⟩
  rw [hstoring, hadvanced, hindex]
  rfl

end ChipEight.Machine
