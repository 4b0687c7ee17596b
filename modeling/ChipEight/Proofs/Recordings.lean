import ChipEight.Proofs.StepCases
import Mathlib.Data.List.Induction

/-! Which failures are recorded, and where. Every operation that answers with a failure records it, except
for a step that repeats a fault. The records of a log at its two most severe levels are the recorded
failures, one for one and in order, and what a machine keeps is a copy of the last of them since its last
reset, which tells as much as the failure itself. -/
namespace ChipEight

/-- The kind of a cause: the system has one for each of its refusals. -/
inductive IoFailure.IsOf : IoFailure → IoKind → Prop
  | notFound : IsOf (.system .notFound) .notFound
  | permissionDenied : IsOf (.system .permissionDenied) .permissionDenied
  | notADirectory : IsOf (.system .notADirectory) .notADirectory
  | isADirectory : IsOf (.system .isADirectory) .isADirectory
  | nameTooLong : IsOf (.system .nameTooLong) .invalidFilename
  | source (kind : IoKind) (message : String) : IsOf (.source kind message) kind

lemma IoFailure.isOf_kind (cause : IoFailure) : cause.IsOf cause.kind := by
  cases cause with
  | system error => cases error <;> constructor
  | source kind message => exact .source kind message

/-- Failures of the same kind with the same numbers; of two that have causes, the kind and the message of
the cause count. -/
def Failure.Alike : Failure → Failure → Prop
  | .io a, .io b => (∃ kind, a.IsOf kind ∧ b.IsOf kind) ∧ a.message = b.message
  | f, g => f = g

lemma Failure.alike_copy (f : Failure) : f.copy.Alike f := by
  cases f with
  | io cause => exact ⟨⟨cause.kind, .source _ _, cause.isOf_kind⟩, rfl⟩
  | _ => rfl

/-- A failure that was recorded, and the machine as it was left. -/
structure Recording where
  failure : Failure
  machine : Machine

/-- The record: a failure that stops the machine is an error and has the registers under it. -/
def Recording.line (r : Recording) : String :=
  match r.failure with
  | .stackOverflow _ | .stackUnderflow _ | .outOfBounds _ =>
    "ERROR " ++ (r.failure.message ++ "\n" ++ "\n".intercalate r.machine.registerLines)
  | .romTooLarge _ _ | .unknownOpcode _ _ | .invalidKey _ | .io _ => "WARN " ++ r.failure.message

/-- What is kept of the last recording, if there is any. -/
inductive Remembers : Option Failure → Option Recording → Prop
  | nothing : Remembers none none
  | last {kept : Failure} {r : Recording} (alike : kept.Alike r.failure)
      (message : kept.message = r.failure.message) : Remembers (some kept) (some r)

lemma remembers_copy (r : Option Recording) : Remembers (r.map (·.failure.copy)) r := by
  cases r with
  | none => exact .nothing
  | some r => exact .last r.failure.alike_copy r.failure.message_copy

/-- The operations `later` are those of a history behind its last reset, if it has any. -/
structure SinceReset (before later ops : List Operation) : Prop where
  eq : ops = before ++ later
  noReset : .reset ∉ later
  begins : before = [] ∨ ∃ earlier, before = earlier ++ [.reset]

lemma exists_sinceReset (ops : List Operation) : ∃ before later, SinceReset before later ops := by
  induction ops using List.reverseRecOn with
  | nil => exact ⟨[], [], rfl, List.not_mem_nil, .inl rfl⟩
  | append_singleton ops op ih =>
    by_cases hop : op = .reset
    · subst hop
      exact ⟨ops ++ [.reset], [], (List.append_nil _).symm, List.not_mem_nil, .inr ⟨ops, rfl⟩⟩
    · obtain ⟨before, later, heq, hno, hbegins⟩ := ih
      refine ⟨before, later ++ [op], ?_, ?_, hbegins⟩
      · rw [heq, List.append_assoc]
      · simpa [hno] using Ne.symm hop

namespace Machine

/-- A step of a faulted machine. -/
def repeatsFault (m : Machine) : Operation → Bool
  | .step => m.isFaulted
  | _ => false

def recording? (m : Machine) (op : Operation) : Option Recording :=
  match (m.perform op).result with
  | .ok () => none
  | .error f =>
    if m.repeatsFault op then none else some ⟨f, (m.perform op).machine⟩

def recordings (m : Machine) : List Operation → List Recording
  | [] => []
  | op :: ops => (m.recording? op).toList ++ recordings (m.perform op).machine ops

/-- A reply of the machine `m` as good as any, or one with a record of its failure at the end of the log. -/
inductive Answers (m : Machine) : Reply → Prop
  | well {machine : Machine} {log : List Event} (quiet : logRecords .warn log = [])
      (kept : machine.lastFailure = m.lastFailure) : Answers m ⟨.ok (), machine, log⟩
  | recorded (n : Machine) (f : Failure) (before : List Event)
      (quiet : logRecords .warn before = []) :
      Answers m { n.fail f with log := before ++ (n.fail f).log }

variable {m : Machine}

lemma answers_fail (n : Machine) (f : Failure) : Answers m (n.fail f) :=
  .recorded n f [] rfl

lemma quiet_waitNotice (m : Machine) : logRecords .warn m.waitNotice = [] := by
  unfold waitNotice
  cases m.status <;> rfl

lemma answers_cycle (m : Machine) : Answers m m.cycle := by
  cases hw : m.memory.word m.pc with
  | error f =>
    rw [cycle_of_word_error hw]
    exact answers_fail m f
  | ok w =>
    cases hd : Instruction.decode? w with
    | none =>
      rw [cycle_of_undecodable hw hd]
      exact answers_fail m.advance _
    | some i =>
      rw [cycle_of_decode hw hd, issue]
      cases he : execute m.pc i m.advance with
      | error f => exact .recorded m.advance f [.executing m.pc w i] rfl
      | ok done =>
        obtain ⟨hset, -⟩ := execute_flow he
        exact .well (quiet_waitNotice done) hset.lastFailure

lemma answers_step (h : m.isFaulted = false) : Answers m m.step := by
  cases hs : m.status with
  | running =>
    rw [step_of_running hs]
    exact answers_cycle m
  | awaitingKey x =>
    rw [step_of_awaiting hs, pollKey]
    cases m.keypad.firstPressed with
    | none => exact .well rfl rfl
    | some key => exact .well rfl rfl
  | faulted f =>
    rw [isFaulted, hs] at h
    cases h

theorem answers_perform {op : Operation} (hreset : op ≠ .reset) (h : m.repeatsFault op = false) :
    Answers m (m.perform op) := by
  cases op with
  | step => exact answers_step h
  | reset => exact absurd rfl hreset
  | tick => exact .well rfl rfl
  | load program =>
    simp only [perform, load]
    cases m.memory.loadProgram program with
    | ok _ => exact .well rfl rfl
    | error f => exact answers_fail m f
  | loadFrom chunks =>
    simp only [perform, loadFrom]
    cases m.memory.loadProgramFrom chunks with
    | ok _ => exact .well rfl rfl
    | error f => exact answers_fail m f
  | setKey index pressed =>
    simp only [perform, setKey]
    cases m.keypad.set index pressed with
    | ok _ => exact .well rfl rfl
    | error f => exact answers_fail m f

lemma registerLines_fail (n : Machine) (f : Failure) :
    (n.fail f).machine.registerLines = n.registerLines := by
  unfold fail
  split <;> rfl

/-- The record of a failure is made before the machine is marked, but marking it leaves the registers. -/
lemma logRecords_fail (n : Machine) (f : Failure) :
    logRecords .warn (n.fail f).log = [Recording.line ⟨f, (n.fail f).machine⟩] := by
  cases f with
  | stackOverflow _ | stackUnderflow _ | outOfBounds _ =>
    rw [Recording.line, registerLines_fail, fail_of_fatal n rfl, ← registerDump_eq]
    rfl
  | romTooLarge _ _ | unknownOpcode _ _ | invalidKey _ | io _ =>
    rw [Recording.line, fail_of_not_fatal n rfl]
    rfl

/-- What an operation logs, and what it leaves to be kept. -/
structure Books (m : Machine) (op : Operation) : Prop where
  log : logRecords .warn (m.perform op).log = (m.recording? op).toList.map Recording.line
  kept : op ≠ .reset → (m.perform op).machine.lastFailure =
    ((m.recording? op).map (·.failure.copy)).or m.lastFailure

lemma books_of_answers {op : Operation} (hrepeats : m.repeatsFault op = false)
    (h : Answers m (m.perform op)) : Books m op := by
  have hrecording : m.recording? op = match (m.perform op).result with
      | .ok () => none
      | .error f => some ⟨f, (m.perform op).machine⟩ := by
    simp only [recording?, hrepeats, Bool.false_eq_true, if_false]
  generalize hr : m.perform op = r at h hrecording
  refine ⟨?_, fun _ => ?_⟩
  · rw [hr, hrecording]
    cases h with
    | well quiet _ => exact quiet
    | recorded n f before quiet =>
      simp only [logRecords_append, quiet, result_fail, logRecords_fail]
      rfl
  · rw [hr, hrecording]
    cases h with
    | well _ kept => exact kept
    | recorded n f _ _ =>
      simp only [result_fail]
      exact lastFailure_fail n f

lemma books_of_repeats {op : Operation} (hrepeats : m.repeatsFault op = true) : Books m op := by
  have hnone : m.recording? op = none := by
    simp only [recording?, hrepeats, if_true]
    split <;> rfl
  cases op with
  | step =>
    cases hs : m.status with
    | running | awaitingKey _ =>
      rw [repeatsFault, isFaulted, hs] at hrepeats
      cases hrepeats
    | faulted f =>
      have hstep : m.perform .step = ⟨.error f, m, []⟩ := step_of_faulted hs
      refine ⟨?_, fun _ => ?_⟩
      · rw [hnone, hstep]
        rfl
      · rw [hnone, hstep]
        rfl
  | load _ | loadFrom _ | reset | tick | setKey _ _ => cases hrepeats

theorem books_perform (m : Machine) (op : Operation) : Books m op := by
  by_cases hreset : op = .reset
  · subst hreset
    exact ⟨rfl, fun h => absurd rfl h⟩
  · cases hrepeats : m.repeatsFault op with
    | false => exact books_of_answers hrepeats (answers_perform hreset hrepeats)
    | true => exact books_of_repeats hrepeats

theorem logRecords_logOf (m : Machine) (ops : List Operation) :
    logRecords .warn (m.logOf ops) = (m.recordings ops).map Recording.line := by
  induction ops generalizing m with
  | nil => rfl
  | cons op ops ih =>
    have hlog : m.logOf (op :: ops) = (m.perform op).log ++ (m.perform op).machine.logOf ops := by
      rw [logOf, replies, List.flatMap_cons, logOf]
    rw [hlog, logRecords_append, (books_perform m op).log, ih, recordings, List.map_append]

theorem lastFailure_after {ops : List Operation} (h : .reset ∉ ops) :
    (m.after ops).lastFailure =
      ((m.recordings ops).getLast?.map (·.failure.copy)).or m.lastFailure := by
  induction ops generalizing m with
  | nil => rfl
  | cons op ops ih =>
    rw [List.mem_cons, not_or] at h
    have hlast : (m.recordings (op :: ops)).getLast? =
        ((m.perform op).machine.recordings ops).getLast?.or (m.recording? op) := by
      rw [recordings, List.getLast?_append]
      cases m.recording? op <;> rfl
    calc (m.after (op :: ops)).lastFailure
        = (((m.perform op).machine.recordings ops).getLast?.map (·.failure.copy)).or
            (m.perform op).machine.lastFailure := ih h.2
      _ = ((m.recordings (op :: ops)).getLast?.map (·.failure.copy)).or m.lastFailure := by
          rw [(books_perform m op).kept (Ne.symm h.1), hlast]
          cases ((m.perform op).machine.recordings ops).getLast? <;> rfl

lemma lastFailure_of_begins {before : List Operation} {random : RandomSource} {dialect : Dialect}
    (h : before = [] ∨ ∃ earlier, before = earlier ++ [.reset]) :
    ((start random dialect).after before).lastFailure = none := by
  obtain rfl | ⟨earlier, rfl⟩ := h
  · rfl
  · rw [after_append]
    rfl

/-- The records that a history leaves at the levels of warnings and errors are those of the failures that
it records, each with its own line, and what the machine keeps in the end is the last of the failures
recorded since the last reset, or nothing if there is none. -/
theorem every_failure_is_recorded_once (random : RandomSource) (dialect : Dialect)
    (ops : List Operation) :
    logRecords .warn ((start random dialect).logOf ops) =
        ((start random dialect).recordings ops).map Recording.line ∧
      (∃ before later, SinceReset before later ops) ∧
      ∀ before later, SinceReset before later ops →
        Remembers ((start random dialect).after ops).lastFailure
          (((start random dialect).after before).recordings later).getLast? := by
  refine ⟨logRecords_logOf _ ops, exists_sinceReset ops, ?_⟩
  rintro before later ⟨rfl, hno, hbegins⟩
  rw [after_append, lastFailure_after hno, lastFailure_of_begins hbegins, Option.or_none]
  exact remembers_copy _

/-- A key that there is not and then, after a reset, an unknown word, a return from nowhere that is
repeated, and a directory in place of a program. -/
def fourFailures : List Operation :=
  [.setKey 16 true, .reset] ++ [.load [0xff, 0xff, 0x00, 0xee], .step, .step, .step,
    .loadFrom [.failure (.system .isADirectory)]]

theorem every_failure_is_recorded_once_directory :
    logRecords .warn ((start ⟨fun _ => 0, 0⟩ {}).logOf fourFailures) =
        ["WARN key index 0x10 is outside the 16-key bank",
          "WARN unknown opcode 0xffff at 0x0200",
          "ERROR stack underflow: return at 0x0202 with an empty call stack\n" ++
            "V0: 0x00\nV1: 0x00\nV2: 0x00\nV3: 0x00\nV4: 0x00\nV5: 0x00\nV6: 0x00\nV7: 0x00\n" ++
            "V8: 0x00\nV9: 0x00\nVA: 0x00\nVB: 0x00\nVC: 0x00\nVD: 0x00\nVE: 0x00\nVF: 0x00\n" ++
            "I:  0x0000\nPC: 0x0204\nSP: 0",
          "WARN Is a directory (os error 21)"] ∧
      ∃ kept, ((start ⟨fun _ => 0, 0⟩ {}).after fourFailures).lastFailure = some kept ∧
        kept.Alike (.io (.system .isADirectory)) ∧ kept.message = "Is a directory (os error 21)" := by
  obtain ⟨hlog, -, hkept⟩ := every_failure_is_recorded_once ⟨fun _ => 0, 0⟩ {} fourFailures
  refine ⟨hlog.trans (by decide +kernel), ?_⟩
  have hsince : SinceReset [.setKey 16 true, .reset] _ fourFailures :=
    ⟨rfl, by simp, .inr ⟨[.setKey 16 true], rfl⟩⟩
  have hremembers := hkept _ _ hsince
  have hlast : (((start ⟨fun _ => 0, 0⟩ {}).after [.setKey 16 true, .reset]).recordings
      [.load [0xff, 0xff, 0x00, 0xee], .step, .step, .step,
        .loadFrom [.failure (.system .isADirectory)]]).getLast?.map (·.failure) =
      some (.io (.system .isADirectory)) := by
    decide +kernel
  obtain ⟨r, hr, hfailure⟩ := Option.map_eq_some_iff.1 hlast
  rw [hr] at hremembers
  generalize ((start ⟨fun _ => 0, 0⟩ {}).after fourFailures).lastFailure = last at hremembers ⊢
  cases hremembers with
  | @last kept _ alike message =>
    rw [hfailure] at alike message
    exact ⟨kept, rfl, alike, message.trans (by decide)⟩

end Machine

end ChipEight
