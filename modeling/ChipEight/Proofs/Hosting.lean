import ChipEight.Proofs.Soundness

/-! What a host does between steps: it loads programs, ticks the timers and presses keys. On a sound
machine none of that reaches the processor and none of it ends in a fault, since a program of an
accepted size always fits. Memory changes by the programs whose loads succeed and by nothing else. -/
namespace ChipEight

/-- The bytes that an operation offers as a program, if it is a load and they can be read. -/
def Operation.program? : Operation → Option (List UInt8)
  | .load program => some program
  | .loadFrom chunks =>
    match Chunk.readToEnd chunks with
    | .ok program => some program
    | .error _ => none
  | _ => none

lemma Chunk.not_fatal_of_readToEnd {chunks : List Chunk} {f : Failure}
    (h : readToEnd chunks = .error f) : f.isFatal = false := by
  induction chunks with
  | nil => cases h
  | cons chunk rest ih =>
    match chunk with
    | .bytes [] => cases h
    | .bytes (b :: data) =>
      rw [readToEnd, map_eq_error_iff] at h
      exact ih h
    | .failure cause =>
      rw [readToEnd] at h
      split at h
      · exact ih h
      · cases h
        rfl

namespace Memory

lemma not_fatal_of_loadProgram {m : Memory} (hb : m.programBase = 0x200) {program : List UInt8}
    {f : Failure} (h : m.loadProgram program = .error f) : f.isFatal = false := by
  unfold loadProgram at h
  split at h
  case isTrue hle =>
    obtain ⟨-, hgt⟩ := (write_eq_error_iff m _ program f).1 h
    rw [hb] at hgt
    simp only [UInt16.reduceToNat] at hgt
    omega
  case isFalse =>
    cases h
    rfl

lemma not_fatal_of_loadProgramFrom {m : Memory} (hb : m.programBase = 0x200)
    {chunks : List Chunk} {f : Failure} (h : m.loadProgramFrom chunks = .error f) :
    f.isFatal = false := by
  cases hr : Chunk.readToEnd chunks with
  | error g =>
    simp only [loadProgramFrom, hr, bind, Except.bind] at h
    cases h
    exact Chunk.not_fatal_of_readToEnd hr
  | ok program =>
    rw [loadProgramFrom_of_readToEnd m hr] at h
    exact not_fatal_of_loadProgram hb h

/-- Memory with programs put in it one after the other. -/
def withPrograms (m : Memory) (programs : List (List UInt8)) : Memory :=
  { m with bytes := programs.foldl (fun bytes program => put bytes 0x200 program) m.bytes }

lemma withPrograms_append (m : Memory) (a b : List (List UInt8)) :
    m.withPrograms (a ++ b) = (m.withPrograms a).withPrograms b := by
  simp only [withPrograms, List.foldl_append]

end Memory

namespace Machine

/-- What an operation other than a step and a reset can do. -/
inductive HostCase (m : Machine) : Operation → Reply → Prop
  | loaded {op : Operation} {program : List UInt8} {log : List Event}
      (offers : op.program? = some program) :
      HostCase m op ⟨.ok (), { m with memory := m.memory.withPrograms [program] }, log⟩
  | ticked : HostCase m .tick ⟨.ok (), m.tick, []⟩
  | pressed {index : Nat} {pressed : Bool} {keypad : Keypad}
      (set : m.keypad.set index pressed = .ok keypad) :
      HostCase m (.setKey index pressed) ⟨.ok (), { m with keypad := keypad }, []⟩
  | refused {op : Operation} {f : Failure} (passing : f.isFatal = false) :
      HostCase m op ⟨.error f, { m with lastFailure := some f.copy }, [.refused f]⟩

variable {m m' m'' : Machine} {op : Operation}

lemma after_snoc (m : Machine) (ops : List Operation) (op : Operation) :
    m.after (ops ++ [op]) = ((m.after ops).perform op).machine := after_append m ops [op]

lemma hostCase_fail {f : Failure} (h : f.isFatal = false) : HostCase m op (m.fail f) := by
  rw [fail_of_not_fatal m h]
  exact .refused h

theorem perform_cases (hm : m.Sound) (hstep : op ≠ .step) (hreset : op ≠ .reset) :
    HostCase m op (m.perform op) := by
  have hb : m.memory.programBase.toNat = 0x200 := by rw [hm.programBase]; rfl
  cases op with
  | load program =>
    simp only [perform, load]
    split
    case h_1 memory h =>
      rw [Memory.loadProgram_eq_ok h, hb]
      exact .loaded rfl
    case h_2 f h => exact hostCase_fail (Memory.not_fatal_of_loadProgram hm.programBase h)
  | loadFrom chunks =>
    simp only [perform, loadFrom]
    split
    case h_1 memory h =>
      obtain ⟨program, hr, rfl⟩ := Memory.loadProgramFrom_eq_ok h
      rw [hb]
      exact .loaded (by simp only [Operation.program?, hr])
    case h_2 f h => exact hostCase_fail (Memory.not_fatal_of_loadProgramFrom hm.programBase h)
  | reset => exact absurd rfl hreset
  | step => exact absurd rfl hstep
  | tick => exact .ticked
  | setKey index pressed =>
    simp only [perform, setKey]
    cases hk : m.keypad.set index pressed with
    | ok keypad => exact .pressed hk
    | error f =>
      unfold Keypad.set at hk
      split at hk
      · cases hk
      · cases hk
        exact hostCase_fail rfl

/-- The parts that only steps and resets write. -/
structure SameProcessor (m m' : Machine) : Prop where
  v : m'.v = m.v
  index : m'.index = m.index
  pc : m'.pc = m.pc
  stack : m'.stack = m.stack
  screen : m'.screen = m.screen
  status : m'.status = m.status
  dialect : m'.dialect = m.dialect
  random : m'.random = m.random

lemma SameProcessor.refl (m : Machine) : SameProcessor m m :=
  ⟨rfl, rfl, rfl, rfl, rfl, rfl, rfl, rfl⟩

lemma SameProcessor.trans (h : SameProcessor m m') (h' : SameProcessor m' m'') :
    SameProcessor m m'' where
  v := h'.v.trans h.v
  index := h'.index.trans h.index
  pc := h'.pc.trans h.pc
  stack := h'.stack.trans h.stack
  screen := h'.screen.trans h.screen
  status := h'.status.trans h.status
  dialect := h'.dialect.trans h.dialect
  random := h'.random.trans h.random

theorem sameProcessor_perform (hm : m.Sound) (hstep : op ≠ .step) (hreset : op ≠ .reset) :
    SameProcessor m (m.perform op).machine := by
  have h := perform_cases hm hstep hreset
  generalize m.perform op = r at h
  cases h with
  | loaded _ | ticked | pressed _ | refused _ => exact ⟨rfl, rfl, rfl, rfl, rfl, rfl, rfl, rfl⟩

/-- The program that an operation puts in memory: the one that it offers, if it succeeds. -/
def loaded? (m : Machine) (op : Operation) : Option (List UInt8) :=
  match (m.perform op).result with
  | .ok () => op.program?
  | .error _ => none

def loadedPrograms (m : Machine) : List Operation → List (List UInt8)
  | [] => []
  | op :: ops => (m.loaded? op).toList ++ loadedPrograms (m.perform op).machine ops

theorem memory_perform (hm : m.Sound) (hstep : op ≠ .step) (hreset : op ≠ .reset) :
    (m.perform op).machine.memory = m.memory.withPrograms (m.loaded? op).toList := by
  have h := perform_cases hm hstep hreset
  unfold loaded?
  generalize m.perform op = r at h ⊢
  cases h with
  | loaded offers => simp only [offers, Option.toList_some]
  | ticked | pressed _ | refused _ => rfl

end Machine

end ChipEight
