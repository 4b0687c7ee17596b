import ChipEight.Proofs.Soundness
import ChipEight.Proofs.Stepwise

/-! Whole operations one assignment after the other. On a sound machine no operation is ever trapped,
and it comes to the reply and the machine of `perform`; so no history of a machine leaves an array,
overflows a number or wraps its program counter. -/
namespace ChipEight.Stepwise
open ChipEight.Action

def cycle : Action Unit := do
  let pc ← get Machine.pc
  let pair ← slice pc 2
  let high ← found pair[0]?
  let low ← found pair[1]?
  let w := UInt16.ofNat (high.toNat * 256 + low.toNat)
  setPc (← add pc 2)
  match Instruction.decode? w with
  | none => fail (.unknownOpcode w pc)
  | some i => execute pc i

/-- A failure is recorded in the machine that it leaves behind. -/
def recorded (x : Action Unit) : Action Unit := fun m =>
  match x m with
  | .failed f m => .failed f (m.fail f).machine
  | outcome => outcome

def pollKey (x : Register) : Action Unit := do
  match ← get fun m => m.keypad.firstPressed with
  | some key =>
    setRegister x.val (UInt8.ofNat key.val)
    modify fun m => { m with status := .running }
  | none => pure ()

def step : Action Unit := do
  match ← get Machine.status with
  | .faulted f => fail f
  | .awaitingKey x => pollKey x
  | .running => recorded cycle

def loadProgram (program : List UInt8) : Action Unit := do
  if 3584 < program.length then fail (.romTooLarge program.length 3584)
  else do
    let base ← get fun m => m.memory.programBase
    overwrite base program

def loadProgramFrom (chunks : List Chunk) : Action Unit :=
  match Chunk.readToEnd chunks with
  | .error f => fail f
  | .ok program => loadProgram program

/-- Memory first: the font goes to wherever its base address says. -/
def reset : Action Unit := do
  modify fun m => { m with memory := { m.memory with bytes := Vector.replicate 4096 0 } }
  let base ← get fun m => m.memory.fontBase
  setBytes base.toNat font
  modify fun m => { m with
    v := Vector.replicate 16 0, index := 0, pc := m.memory.programBase, stack := CallStack.empty,
    timers := {}, screen := Screen.blank, keypad := Keypad.released, status := .running,
    lastFailure := none }

def setKey (index : Nat) (pressed : Bool) : Action Unit := fun m =>
  match m.keypad.set index pressed with
  | .ok keypad => .done () { m with keypad := keypad }
  | .error f => .failed f m

def perform : Operation → Action Unit
  | .load program => recorded (loadProgram program)
  | .loadFrom chunks => recorded (loadProgramFrom chunks)
  | .reset => reset
  | .step => step
  | .tick => modify Machine.tick
  | .setKey index pressed => recorded (setKey index pressed)

/-- What an action comes to that answers with this reply. -/
def ofReply (r : Reply) : Outcome Unit :=
  match r.result with
  | .ok () => .done () r.machine
  | .error f => .failed f r.machine

variable {m : Machine}

lemma ofReply_fail (f : Failure) : ofReply (m.fail f) = .failed f (m.fail f).machine := by
  simp only [ofReply, Machine.result_fail]

lemma recorded_of_failed {x : Action Unit} {m' : Machine} {f : Failure}
    (h : x m = .failed f m') : recorded x m = ofReply (m'.fail f) := by
  simp only [recorded, h, ofReply_fail]

lemma recorded_of_done {x : Action Unit} {m' : Machine} (h : x m = .done () m') :
    recorded x m = .done () m' := by
  simp only [recorded, h]

lemma slice_word {pc : UInt16} (h : pc.toNat + 2 ≤ 4096) :
    slice pc 2 m = .done [m.memory.byte pc.toNat, m.memory.byte (pc.toNat + 1)] m := by
  rw [slice_apply m pc (by decide), Memory.read_of_le m.memory h]
  rfl

/-- The fetch leaves the program counter behind the word, and the rest is up to the instruction. -/
lemma cycle_of_le (h : m.pc.toNat + 2 ≤ 4096) : cycle m =
    match Instruction.decode? (m.memory.wordAt m.pc.toNat) with
    | none => .failed (.unknownOpcode (m.memory.wordAt m.pc.toNat) m.pc) m.advance
    | some i => execute m.pc i m.advance := by
  have hsum : m.pc.toNat + (2 : UInt16).toNat < 65536 := by
    simp only [UInt16.reduceToNat]
    omega
  simp only [cycle, bind_apply, get_apply, slice_word h, List.getElem?_cons_zero,
    List.getElem?_cons_succ, found_some, pure_apply, add_of_lt hsum, setPc, modify_apply]
  change (match Instruction.decode? (m.memory.wordAt m.pc.toNat) with
    | none => fail (.unknownOpcode (m.memory.wordAt m.pc.toNat) m.pc)
    | some i => execute m.pc i) m.advance = _
  cases Instruction.decode? (m.memory.wordAt m.pc.toNat) <;> rfl

lemma recorded_cycle (hm : m.Sound) : recorded cycle m = ofReply m.cycle := by
  by_cases h : m.pc.toNat + 2 ≤ 4096
  · have hw := Memory.word_of_le m.memory h
    obtain ⟨hpc, hle⟩ := Machine.toNat_pc_advance hw
    have hc := cycle_of_le h
    cases hd : Instruction.decode? (m.memory.wordAt m.pc.toNat) with
    | none =>
      rw [hd] at hc
      rw [recorded_of_failed hc, Machine.cycle_of_undecodable hw hd]
    | some i =>
      rw [hd] at hc
      simp only [execute_apply (m := m.advance) hm.fontBase (by omega)] at hc
      rw [Machine.cycle_of_decode hw hd, Machine.issue]
      cases he : Machine.execute m.pc i m.advance with
      | error f =>
        rw [he] at hc
        rw [recorded_of_failed hc, ofReply_fail]
        simp only [ofReply, Machine.result_fail]
      | ok done =>
        rw [he] at hc
        exact recorded_of_done hc
  · have hgt := Nat.lt_of_not_le h
    have hc : cycle m = .failed (.outOfBounds (max m.pc.toNat 4096)) m := by
      simp only [cycle, bind_apply, get_apply, slice_apply m m.pc (show 2 < 2 ^ 53 by decide),
        Memory.read_of_gt m.memory hgt]
    rw [recorded_of_failed hc, Machine.cycle_of_word_error (Memory.word_of_gt m.memory hgt)]

lemma pollKey_apply (x : Register) : pollKey x m = ofReply (m.pollKey x) := by
  simp only [pollKey, bind_apply, get_apply, Machine.pollKey]
  cases m.keypad.firstPressed with
  | none => rfl
  | some key =>
    simp only [setRegister_val, bind_apply, modify_apply]
    rfl

lemma step_apply (hm : m.Sound) : step m = ofReply m.step := by
  simp only [step, bind_apply, get_apply]
  cases hs : m.status with
  | running =>
    rw [Machine.step_of_running hs]
    exact recorded_cycle hm
  | awaitingKey x =>
    rw [Machine.step_of_awaiting hs]
    exact pollKey_apply x
  | faulted f =>
    rw [Machine.step_of_faulted hs]
    rfl

lemma loadProgram_apply (program : List UInt8) : loadProgram program m =
    match m.memory.loadProgram program with
    | .ok memory => .done () { m with memory := memory }
    | .error f => .failed f m := by
  by_cases h : program.length ≤ 3584
  · have hn : ¬ 3584 < program.length := by omega
    simp only [loadProgram, hn, if_false, bind_apply, get_apply, Memory.loadProgram, h, if_true]
    exact overwrite_apply m _ (by omega)
  · simp only [loadProgram, Nat.lt_of_not_le h, if_true, Memory.loadProgram, h, if_false]
    rfl

lemma load_apply (program : List UInt8) :
    recorded (loadProgram program) m = ofReply (m.load program) := by
  have h := loadProgram_apply (m := m) program
  unfold Machine.load
  cases hl : m.memory.loadProgram program with
  | ok memory =>
    rw [hl] at h
    exact recorded_of_done h
  | error f =>
    rw [hl] at h
    exact recorded_of_failed h

lemma loadFrom_apply (chunks : List Chunk) :
    recorded (loadProgramFrom chunks) m = ofReply (m.loadFrom chunks) := by
  unfold Machine.loadFrom
  cases hr : Chunk.readToEnd chunks with
  | error f =>
    have hl : m.memory.loadProgramFrom chunks = .error f := by
      simp only [Memory.loadProgramFrom, hr, Bind.bind, Except.bind]
    have h : loadProgramFrom chunks m = .failed f m := by
      simp only [loadProgramFrom, hr, fail_apply]
    rw [hl, recorded_of_failed h]
  | ok program =>
    rw [Memory.loadProgramFrom_of_readToEnd m.memory hr]
    have h := loadProgram_apply (m := m) program
    have h' : loadProgramFrom chunks = loadProgram program := by simp only [loadProgramFrom, hr]
    cases hl : m.memory.loadProgram program with
    | ok memory =>
      rw [hl, ← h'] at h
      exact recorded_of_done h
    | error f =>
      rw [hl, ← h'] at h
      exact recorded_of_failed h

lemma reset_apply (hm : m.Sound) : reset m = ofReply m.reset := by
  have hlen : m.memory.fontBase.toNat + font.length ≤ 4096 := by
    rw [hm.fontBase]
    decide
  simp only [reset, bind_apply, modify_apply, get_apply]
  rw [setBytes_of_le (by exact hlen)]
  rfl

lemma setKey_apply (index : Nat) (pressed : Bool) :
    recorded (setKey index pressed) m = ofReply (m.setKey index pressed) := by
  unfold Machine.setKey
  cases hk : m.keypad.set index pressed with
  | ok keypad =>
    have h : setKey index pressed m = .done () { m with keypad := keypad } := by
      simp only [setKey, hk]
    exact recorded_of_done h
  | error f =>
    have h : setKey index pressed m = .failed f m := by simp only [setKey, hk]
    exact recorded_of_failed h

theorem perform_apply (hm : m.Sound) (op : Operation) : perform op m = ofReply (m.perform op) := by
  cases op with
  | load program => exact load_apply program
  | loadFrom chunks => exact loadFrom_apply chunks
  | reset => exact reset_apply hm
  | step => exact step_apply hm
  | tick => rfl
  | setKey index pressed => exact setKey_apply index pressed

/-- Every machine that a history leads to is sound, and no further operation on it is trapped: done
assignment by assignment it gives the reply of `perform`. -/
theorem sound_and_never_trapped (random : RandomSource) (dialect : Dialect)
    (ops : List Operation) :
    ((Machine.start random dialect).after ops).Sound ∧
      ∀ op, perform op ((Machine.start random dialect).after ops) =
        ofReply (((Machine.start random dialect).after ops).perform op) := by
  have hm := (Machine.sound_start random dialect).after ops
  exact ⟨hm, fun op => perform_apply hm op⟩

end ChipEight.Stepwise
