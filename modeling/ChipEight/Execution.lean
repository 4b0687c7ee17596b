import ChipEight.Machine

/-! One step of the machine: fetch a word, move the program counter past it, decode and execute. An
instruction either fails with the machine as it was or has its whole effect. -/
namespace ChipEight

namespace Machine

def setRegister (m : Machine) (x : Register) (b : UInt8) : Machine := { m with v := m.v.set x b }

/-- The flag is register 15. -/
def setFlag (m : Machine) (flag : Bool) : Machine := m.setRegister 15 (if flag then 1 else 0)

def advance (m : Machine) : Machine := { m with pc := m.pc + 2 }

def skipWhen (m : Machine) (condition : Bool) : Machine := if condition then m.advance else m

/-- The index register after a transfer of registers 0 to `last`. -/
def indexAfter (m : Machine) (last : Register) : UInt16 :=
  if m.dialect.transferAdvances then m.index + UInt16.ofNat (last.val + 1) else m.index

/-- How many rows of a sprite fall on the screen when it is drawn at row register `y`. -/
def visibleRows (m : Machine) (y : Register) (height : Fin 16) : Nat :=
  min height.val (Screen.rowsBelow m.v[y])

def holds (m : Machine) : Condition → Bool
  | .isByte x nn => m.v[x] == nn
  | .isNotByte x nn => m.v[x] != nn
  | .same x y => m.v[x] == m.v[y]
  | .differ x y => m.v[x] != m.v[y]
  | .keyDown x => m.keypad.isPressed m.v[x].toNat
  | .keyUp x => !m.keypad.isPressed m.v[x].toNat

/-- The result goes into the first register before the flag goes into register 15. -/
def combine (m : Machine) (op : BinaryOp) (x y : Register) : Machine :=
  let r := op.compute m.dialect m.v[x] m.v[y]
  match r.flag with
  | none => m.setRegister x r.value
  | some flag => (m.setRegister x r.value).setFlag flag

/-- `pc` is where the instruction stands; the program counter has moved past it. -/
def execute (pc : UInt16) (i : Instruction) (m : Machine) : Except Failure Machine :=
  match i with
  | .clearScreen => .ok { m with screen := Screen.blank }
  | .ret =>
    match m.stack.pop? with
    | some (address, stack) => .ok { m with pc := address, stack := stack }
    | none => .error (.stackUnderflow pc)
  | .jump a => .ok { m with pc := UInt16.ofNat a.val }
  | .call a =>
    match m.stack.push? m.pc with
    | some stack => .ok { m with pc := UInt16.ofNat a.val, stack := stack }
    | none => .error (.stackOverflow pc)
  | .jumpOffset a => .ok { m with pc := UInt16.ofNat a.val + m.v[0].toUInt16 }
  | .skip c => .ok (m.skipWhen (m.holds c))
  | .loadByte x nn => .ok (m.setRegister x nn)
  | .addByte x nn => .ok (m.setRegister x (m.v[x] + nn))
  | .combine op x y => .ok (m.combine op x y)
  | .loadIndex a => .ok { m with index := UInt16.ofNat a.val }
  | .addIndex x =>
    let index := m.index + m.v[x].toUInt16
    .ok ({ m with index := index }.setFlag (0x1000 ≤ index))
  | .loadGlyph x => .ok { m with index := m.memory.glyphAddress m.v[x] }
  | .random x mask =>
    let (w, random) := m.random.next
    .ok ({ m with random := random }.setRegister x (w.toUInt8 &&& mask))
  | .draw x y height =>
    (m.memory.read m.index (m.visibleRows y height)).map fun sprite =>
      let (screen, collision) := m.screen.draw m.v[x] m.v[y] sprite
      { m with screen := screen }.setFlag collision
  | .waitKey x =>
    match m.keypad.firstPressed with
    | some key => .ok (m.setRegister x (UInt8.ofNat key.val))
    | none => .ok { m with status := .awaitingKey x }
  | .getDelay x => .ok (m.setRegister x m.timers.delay)
  | .setDelay x => .ok { m with timers := { m.timers with delay := m.v[x] } }
  | .setSound x => .ok { m with timers := { m.timers with sound := m.v[x] } }
  | .storeDecimal x =>
    (m.memory.write m.index (decimalDigits m.v[x])).map fun memory => { m with memory := memory }
  | .storeBlock last =>
    (m.memory.write m.index (m.v.toList.take (last.val + 1))).map fun memory =>
      { m with memory := memory, index := m.indexAfter last }
  | .loadBlock last =>
    (m.memory.read m.index (last.val + 1)).map fun data =>
      { m with
        v := Vector.ofFn fun k : Register => data[k.val]?.getD m.v[k]
        index := m.indexAfter last }

/-- What there is to tell about an instruction that has just been executed. -/
def waitNotice (m : Machine) : List Event :=
  match m.status with
  | .awaitingKey x => [.waiting x]
  | _ => []

/-- Executes the instruction `i` that the word `w` at the program counter stands for. -/
def issue (m : Machine) (w : UInt16) (i : Instruction) : Reply :=
  match execute m.pc i m.advance with
  | .error f =>
    let reply := m.advance.fail f
    { reply with log := .executing m.pc w i :: reply.log }
  | .ok done => ⟨.ok (), done, .executing m.pc w i :: done.waitNotice⟩

/-- A word that cannot be fetched leaves the program counter on it. -/
def cycle (m : Machine) : Reply :=
  match m.memory.word m.pc with
  | .error f => m.fail f
  | .ok w =>
    match Instruction.decode w m.pc with
    | .error f => m.advance.fail f
    | .ok i => m.issue w i

/-- The lowest key that is down ends the wait. -/
def pollKey (m : Machine) (x : Register) : Reply :=
  match m.keypad.firstPressed with
  | some key =>
    ⟨.ok (), { m.setRegister x (UInt8.ofNat key.val) with status := .running }, [.resumed key x]⟩
  | none => ⟨.ok (), m, []⟩

/-- A faulted machine gives its failure again and is left alone. -/
def step (m : Machine) : Reply :=
  match m.status with
  | .faulted f => ⟨.error f, m, []⟩
  | .awaitingKey x => m.pollKey x
  | .running => m.cycle

/-- The instruction that the next step executes, if it comes to execute one. -/
def next? (m : Machine) : Option Instruction :=
  match m.status, m.memory.word m.pc with
  | .running, .ok w => Instruction.decode? w
  | _, _ => none

/-- The outcome of several steps, with the number of those that went well. -/
structure Run where
  steps : Nat
  result : Except Failure Unit
  machine : Machine
  log : Array Event

/-- At most `n` steps, up to the first that fails. -/
def run (n : Nat) (m : Machine) (steps : Nat) (log : Array Event) : Run :=
  match n with
  | 0 => ⟨steps, .ok (), m, log⟩
  | n + 1 =>
    match m.step with
    | ⟨.ok (), m, events⟩ => run n m (steps + 1) (log ++ events)
    | ⟨.error f, m, events⟩ => ⟨steps, .error f, m, log ++ events⟩

theorem v_setRegister (m : Machine) (x : Register) (b : UInt8) : (m.setRegister x b).v[x] = b := by
  simp [setRegister]

theorem get_v (m : Machine) (x : Register) : m.v.get x = m.v[x] := rfl

theorem step_of_faulted {m : Machine} {f : Failure} (h : m.status = .faulted f) :
    m.step = ⟨.error f, m, []⟩ := by
  simp [step, h]

theorem step_of_awaiting {m : Machine} {x : Register} (h : m.status = .awaitingKey x) :
    m.step = m.pollKey x := by
  simp [step, h]

theorem step_of_running {m : Machine} (h : m.status = .running) : m.step = m.cycle := by
  simp [step, h]

theorem cycle_of_word_error {m : Machine} {f : Failure} (h : m.memory.word m.pc = .error f) :
    m.cycle = m.fail f := by
  simp [cycle, h]

theorem cycle_of_undecodable {m : Machine} {w : UInt16} (h : m.memory.word m.pc = .ok w)
    (hw : Instruction.decode? w = none) : m.cycle = m.advance.fail (.unknownOpcode w m.pc) := by
  simp [cycle, h, Instruction.decode, hw]

theorem cycle_of_decode {m : Machine} {w : UInt16} {i : Instruction}
    (h : m.memory.word m.pc = .ok w) (hw : Instruction.decode? w = some i) :
    m.cycle = m.issue w i := by
  simp [cycle, h, Instruction.decode, hw]

theorem next?_eq_some_iff (m : Machine) (i : Instruction) : m.next? = some i ↔
    m.status = .running ∧ ∃ w, m.memory.word m.pc = .ok w ∧ Instruction.decode? w = some i := by
  unfold next?
  cases m.status <;> cases m.memory.word m.pc <;> simp

theorem step_of_next? {m : Machine} {i : Instruction} (h : m.next? = some i) :
    ∃ w, m.memory.word m.pc = .ok w ∧ m.step = m.issue w i := by
  obtain ⟨hs, w, hw, hd⟩ := (next?_eq_some_iff m i).1 h
  exact ⟨w, hw, by rw [step_of_running hs, cycle_of_decode hw hd]⟩

theorem result_pollKey (m : Machine) (x : Register) : (m.pollKey x).result = .ok () := by
  unfold pollKey; split <;> rfl

end Machine

end ChipEight
