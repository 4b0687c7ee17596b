import ChipEight.Operation
import ChipEight.Proofs.Action
import ChipEight.Proofs.Plotting

/-! The machine one assignment after the other. Every instruction is written out as the reads, checks
and assignments it is made of, in their order; an array is indexed by plain numbers, and sums that may
not overflow, those on the program counter among them, are trapped when they do. -/
namespace ChipEight.Stepwise
open ChipEight.Action

def skipWhen (condition : Bool) : Action Unit :=
  if condition then do
    let pc ← get Machine.pc
    setPc (← add pc 2)
  else pure ()

def test : Condition → Action Bool
  | .isByte x nn => do return (← register x.val) == nn
  | .isNotByte x nn => do return (← register x.val) != nn
  | .same x y => do return (← register x.val) == (← register y.val)
  | .differ x y => do return (← register x.val) != (← register y.val)
  | .keyDown x => do
    let v ← register x.val
    get fun m => m.keypad.isPressed v.toNat
  | .keyUp x => do
    let v ← register x.val
    get fun m => !m.keypad.isPressed v.toNat

/-- The first register takes over the second where the dialect shifts that one. -/
def loadShifted (x y : Register) : Action Unit := do
  if ← get fun m => m.dialect.shiftsSecond then setRegister x.val (← register y.val) else pure ()

def combine (x y : Register) : BinaryOp → Action Unit
  | .move => do setRegister x.val (← register y.val)
  | .or => do setRegister x.val ((← register x.val) ||| (← register y.val))
  | .and => do setRegister x.val ((← register x.val) &&& (← register y.val))
  | .xor => do setRegister x.val ((← register x.val) ^^^ (← register y.val))
  | .add => do
    let a ← register x.val
    let b ← register y.val
    setRegister x.val (a + b)
    setFlag (255 < a.toNat + b.toNat)
  | .sub => do
    let a ← register x.val
    let b ← register y.val
    setRegister x.val (a - b)
    setFlag (b ≤ a)
  | .subReverse => do
    let a ← register x.val
    let b ← register y.val
    setRegister x.val (b - a)
    setFlag (a ≤ b)
  | .shiftRight => do
    loadShifted x y
    let s ← register x.val
    setRegister x.val (s >>> 1)
    setRegister 15 (s &&& 1)
  | .shiftLeft => do
    loadShifted x y
    let s ← register x.val
    setRegister x.val (s <<< 1)
    setRegister 15 (s >>> 7)

def bumpIndex (last : Register) : Action Unit := do
  if ← get fun m => m.dialect.transferAdvances then do
    let step ← add (UInt16.ofNat last.val) 1
    modify fun m => { m with index := m.index + step }
  else pure ()

def nextWord : Action UInt32 := fun m => .done m.random.next.1 { m with random := m.random.next.2 }

def drawSprite (x y : UInt8) (sprite : List UInt8) : Action Bool := fun m =>
  match m.screen.plotSprite? x y sprite with
  | some (screen, hit) => .done hit { m with screen := screen }
  | none => .trapped

/-- `pc` is where the instruction stands; the program counter has moved past it. -/
def execute (pc : UInt16) : Instruction → Action Unit
  | .clearScreen => modify fun m => { m with screen := Screen.blank }
  | .ret => do
    let depth ← get fun m => m.stack.depth.val
    if depth = 0 then fail (.stackUnderflow pc)
    else do
      let top ← subSize depth 1
      setDepth top
      setPc (← slot top)
  | .jump a => setPc (UInt16.ofNat a.val)
  | .call a => do
    let depth ← get fun m => m.stack.depth.val
    if depth = 16 then fail (.stackOverflow pc)
    else do
      let back ← get Machine.pc
      setSlot depth back
      let next ← addSize depth 1
      setDepth next
      setPc (UInt16.ofNat a.val)
  | .jumpOffset a => do
    let v ← register 0
    setPc (← add (UInt16.ofNat a.val) v.toUInt16)
  | .skip c => do skipWhen (← test c)
  | .loadByte x nn => setRegister x.val nn
  | .addByte x nn => do setRegister x.val ((← register x.val) + nn)
  | .combine op x y => combine x y op
  | .loadIndex a => setIndex (UInt16.ofNat a.val)
  | .addIndex x => do
    let v ← register x.val
    modify fun m => { m with index := m.index + v.toUInt16 }
    setFlag (0x1000 ≤ (← get Machine.index))
  | .loadGlyph x => do
    let digit ← register x.val
    let base ← get fun m => m.memory.fontBase
    setIndex (← add base (← mul digit.toUInt16 5))
  | .random x mask => do
    let w ← nextWord
    setRegister x.val (w.toUInt8 &&& mask)
  | .draw x y height => do
    let column ← register x.val
    let row ← register y.val
    let below ← subSize 32 (row.toNat % 32)
    let index ← get Machine.index
    let sprite ← slice index (min height.val below)
    setFlag (← drawSprite column row sprite)
  | .waitKey x => do
    match ← get fun m => m.keypad.firstPressed with
    | some key => setRegister x.val (UInt8.ofNat key.val)
    | none => modify fun m => { m with status := .awaitingKey x }
  | .getDelay x => do
    let delay ← get fun m => m.timers.delay
    setRegister x.val delay
  | .setDelay x => do
    let v ← register x.val
    modify fun m => { m with timers := { m.timers with delay := v } }
  | .setSound x => do
    let v ← register x.val
    modify fun m => { m with timers := { m.timers with sound := v } }
  | .storeDecimal x => do
    let v ← register x.val
    let index ← get Machine.index
    overwrite index [v / 100, v / 10 % 10, v % 10]
  | .storeBlock last => do
    let index ← get Machine.index
    let count ← addSize last.val 1
    checkRange index count
    let data ← registers count
    require (data.length = count)
    setBytes index.toNat data
    bumpIndex last
  | .loadBlock last => do
    let index ← get Machine.index
    let count ← addSize last.val 1
    let data ← slice index count
    require (data.length = count)
    setRegisters 0 data
    bumpIndex last

variable {m : Machine}

lemma skipWhen_apply (hpc : m.pc.toNat ≤ 0x1000) (c : Bool) :
    skipWhen c m = .done () (m.skipWhen c) := by
  have h : m.pc.toNat + (2 : UInt16).toNat < 65536 := by
    simp only [UInt16.reduceToNat]
    omega
  cases c with
  | false => rfl
  | true =>
    simp only [skipWhen, if_true, bind_apply, get_apply, add_of_lt h, pure_apply]
    rfl

lemma test_apply (c : Condition) : test c m = .done (m.holds c) m := by
  cases c <;> simp only [test, bind_apply, register_val, Machine.get_v, get_apply, pure_apply,
    Machine.holds]

lemma setRegister_setRegister (x : Register) (a b : UInt8) :
    (m.setRegister x a).setRegister x b = m.setRegister x b := by
  simp [Machine.setRegister]

lemma loadShifted_apply (x y : Register) : loadShifted x y m =
    .done () (m.setRegister x (shiftOperand m.dialect (m.v.get x) (m.v.get y))) := by
  cases hd : m.dialect.shiftsSecond with
  | true =>
    simp [loadShifted, bind_apply, get_apply, hd, register_val, Machine.get_v, setRegister_val,
      shiftOperand]
  | false =>
    simp [loadShifted, bind_apply, get_apply, hd, pure_apply, shiftOperand, Machine.setRegister,
      Machine.get_v]

lemma and_one_eq (s : UInt8) : s &&& 1 = if s % 2 == 1 then 1 else 0 := by
  have h : (s &&& 1).toNat = (s % 2).toNat := by simp [Nat.and_one_is_mod]
  rw [UInt8.toNat_inj.1 h]
  have hlt : (s % 2).toNat < 2 := by simp; omega
  rcases Nat.lt_succ_iff_lt_or_eq.1 hlt with h0 | h1
  · have : s % 2 = 0 := UInt8.toNat_inj.1 (by simpa using h0)
    simp [this]
  · have : s % 2 = 1 := UInt8.toNat_inj.1 h1
    simp [this]

lemma shiftRight_seven_eq (s : UInt8) : s >>> 7 = if decide (128 ≤ s) then 1 else 0 := by
  have hs := s.toNat_lt
  apply UInt8.toNat_inj.1
  have h : (s >>> 7).toNat = s.toNat / 128 := by simp [Nat.shiftRight_eq_div_pow]
  rw [h]
  by_cases hle : 128 ≤ s
  · have : 128 ≤ s.toNat := UInt8.le_iff_toNat_le.1 hle
    simp only [hle, decide_true, if_true, UInt8.reduceToNat]
    omega
  · have : s.toNat < 128 := Nat.lt_of_not_le fun hn => hle (UInt8.le_iff_toNat_le.2 hn)
    simp only [hle, decide_false, Bool.false_eq_true, if_false, UInt8.reduceToNat]
    omega

lemma combine_apply (op : BinaryOp) (x y : Register) :
    combine x y op m = .done () (m.combine op x y) := by
  cases op with
  | shiftRight =>
    simp only [combine, bind_apply, loadShifted_apply, register_val, Machine.get_v, setRegister_val,
      Machine.v_setRegister, setRegister_setRegister, and_one_eq, Machine.combine, BinaryOp.compute]
    exact setRegister_val 15 _
  | shiftLeft =>
    simp only [combine, bind_apply, loadShifted_apply, register_val, Machine.get_v, setRegister_val,
      Machine.v_setRegister, setRegister_setRegister, shiftRight_seven_eq, Machine.combine,
      BinaryOp.compute]
    exact setRegister_val 15 _
  | _ =>
    simp only [combine, bind_apply, register_val, Machine.get_v, setRegister_val, setFlag_apply,
      Machine.combine, BinaryOp.compute]

lemma ret_apply (pc : UInt16) :
    execute pc .ret m = Outcome.ofExcept m (Machine.execute pc .ret m) := by
  simp only [execute, bind_apply, get_apply, Machine.execute]
  by_cases hd : m.stack.depth.val = 0
  · rw [(CallStack.pop?_eq_none_iff m.stack).2 hd, if_pos hd]
    rfl
  · have hle : 1 ≤ m.stack.depth.val := by omega
    have hpop : m.stack.pop? = some (m.stack.slots[m.stack.depth.val - 1],
        ⟨m.stack.slots, ⟨m.stack.depth.val - 1, by omega⟩⟩) := dif_pos hle
    have hlt : m.stack.depth.val - 1 < 17 := by omega
    have hs : m.stack.depth.val - 1 < 16 := by omega
    rw [hpop, if_neg hd]
    simp only [bind_apply, subSize_of_le hle, pure_apply, setDepth, hlt, dite_true, slot,
      Vector.getElem?_eq_getElem hs, found_some]
    rfl

lemma call_apply (pc : UInt16) (a : Address) :
    execute pc (.call a) m = Outcome.ofExcept m (Machine.execute pc (.call a) m) := by
  simp only [execute, bind_apply, get_apply, Machine.execute]
  by_cases hd : m.stack.depth.val = 16
  · rw [(CallStack.push?_eq_none_iff m.stack m.pc).2 hd, if_pos hd]
    rfl
  · have hs : m.stack.depth.val < 16 := by omega
    have hlt : m.stack.depth.val + 1 < 17 := by omega
    have hpush : m.stack.push? m.pc = some ⟨m.stack.slots.set m.stack.depth.val m.pc,
        ⟨m.stack.depth.val + 1, hlt⟩⟩ := dif_pos hs
    have hsize : m.stack.depth.val + 1 < 2 ^ 64 := by omega
    rw [hpush, if_neg hd]
    simp only [bind_apply, get_apply, setSlot, hs, dite_true, addSize_of_lt hsize, pure_apply,
      setDepth, hlt]
    rfl

lemma bumpIndex_apply (last : Register) :
    bumpIndex last m = .done () { m with index := m.indexAfter last } := by
  have hl := last.isLt
  have hsum : (UInt16.ofNat last.val).toNat + (1 : UInt16).toNat < 65536 := by
    simp only [UInt16.toNat_ofNat', UInt16.reduceToNat]
    omega
  cases hd : m.dialect.transferAdvances with
  | true =>
    simp [bumpIndex, bind_apply, get_apply, hd, add_of_lt hsum, pure_apply, modify_apply,
      Machine.indexAfter, UInt16.ofNat_add]
  | false => simp [bumpIndex, bind_apply, get_apply, hd, pure_apply, Machine.indexAfter]

lemma storeBlock_apply (pc : UInt16) (last : Register) :
    execute pc (.storeBlock last) m =
      Outcome.ofExcept m (Machine.execute pc (.storeBlock last) m) := by
  have hl := last.isLt
  have hsize : last.val + 1 < 2 ^ 64 := by omega
  have hlen := length_take_registers m.v last
  simp only [execute, bind_apply, get_apply, addSize_of_lt hsize, pure_apply, Machine.execute]
  by_cases h : m.index.toNat + (last.val + 1) ≤ 4096
  · have h' : m.index.toNat + (m.v.toList.take (last.val + 1)).length ≤ 4096 := by omega
    simp only [checkRange_of_le h, registers_of_le (show last.val + 1 ≤ 16 by omega),
      require_of hlen, pure_apply, setBytes_of_le h', bumpIndex_apply,
      Memory.write_of_le m.memory h']
    rfl
  · have hgt : 4096 < m.index.toNat + (m.v.toList.take (last.val + 1)).length := by omega
    simp only [checkRange_of_gt (Nat.lt_of_not_le h) (show last.val + 1 < 2 ^ 53 by omega),
      fail_apply, Memory.write_of_gt m.memory hgt]
    rfl

lemma loadBlock_apply (pc : UInt16) (last : Register) :
    execute pc (.loadBlock last) m =
      Outcome.ofExcept m (Machine.execute pc (.loadBlock last) m) := by
  have hl := last.isLt
  have hsize : last.val + 1 < 2 ^ 64 := by omega
  simp only [execute, bind_apply, get_apply, addSize_of_lt hsize, pure_apply, Machine.execute,
    slice_apply m m.index (show last.val + 1 < 2 ^ 53 by omega)]
  by_cases h : m.index.toNat + (last.val + 1) ≤ 4096
  · have hlen : ((List.range' m.index.toNat (last.val + 1)).map m.memory.byte).length =
        last.val + 1 := by simp
    have h16 : 0 + ((List.range' m.index.toNat (last.val + 1)).map m.memory.byte).length ≤ 16 := by
      omega
    simp only [Memory.read_of_le m.memory h, require_of hlen, pure_apply, setRegisters_of_le h16,
      bumpIndex_apply]
    simp [Outcome.ofExcept, Except.map, Machine.indexAfter, overlaid, Machine.get_v]
  · simp only [Memory.read_of_gt m.memory (Nat.lt_of_not_le h)]
    rfl

theorem execute_apply (hf : m.memory.fontBase = 0x050) (hpc : m.pc.toNat ≤ 0x1000)
    (pc : UInt16) (i : Instruction) :
    execute pc i m = Outcome.ofExcept m (Machine.execute pc i m) := by
  cases i with
  | ret => exact ret_apply pc
  | call a => exact call_apply pc a
  | clearScreen => rfl
  | jump a => rfl
  | loadIndex a => rfl
  | jumpOffset a =>
    have ha := a.isLt
    have hv := m.v[0].toNat_lt
    have hsum : (UInt16.ofNat a.val).toNat + m.v[0].toUInt16.toNat < 65536 := by
      rw [UInt16.toNat_ofNat', UInt8.toNat_toUInt16]
      omega
    have h0 : register 0 m = .done m.v[0] m := register_val 0
    simp only [execute, bind_apply, h0, add_of_lt hsum, pure_apply]
    rfl
  | skip c =>
    simp only [execute, bind_apply, test_apply, skipWhen_apply hpc]
    rfl
  | loadByte x nn => exact setRegister_val x nn
  | addByte x nn =>
    simp only [execute, bind_apply, register_val, Machine.get_v, setRegister_val]
    rfl
  | combine op x y => exact combine_apply op x y
  | addIndex x =>
    simp only [execute, bind_apply, register_val, Machine.get_v, modify_apply, get_apply,
      setFlag_apply]
    rfl
  | loadGlyph x =>
    have hv := m.v[x].toNat_lt
    have hmul : m.v[x].toUInt16.toNat * (5 : UInt16).toNat < 65536 := by
      simp only [UInt8.toNat_toUInt16, UInt16.reduceToNat]
      omega
    have hsum : m.memory.fontBase.toNat + (m.v[x].toUInt16 * 5).toNat < 65536 := by
      rw [hf, UInt16.toNat_mul, Nat.mod_eq_of_lt hmul]
      simp only [UInt8.toNat_toUInt16, UInt16.reduceToNat]
      omega
    simp only [execute, bind_apply, register_val, Machine.get_v, get_apply, mul_of_lt hmul,
      pure_apply, add_of_lt hsum]
    rfl
  | random x mask =>
    simp only [execute, bind_apply, nextWord, setRegister_val]
    rfl
  | draw x y height =>
    have hrow : m.v[y].toNat % 32 ≤ 32 := by omega
    have hlen : min height.val (32 - m.v[y].toNat % 32) < 2 ^ 53 := by omega
    have hlen' : m.visibleRows y height = min height.val (32 - m.v[y].toNat % 32) := rfl
    simp only [execute, bind_apply, register_val, Machine.get_v, subSize_of_le hrow, pure_apply,
      get_apply, slice_apply m m.index hlen, Machine.execute, hlen']
    cases m.memory.read m.index (min height.val (32 - m.v[y].toNat % 32)) with
    | error f => rfl
    | ok sprite =>
      simp only [drawSprite, Screen.plotSprite?_eq_draw, setFlag_apply]
      rfl
  | waitKey x =>
    simp only [execute, bind_apply, get_apply, Machine.execute]
    cases m.keypad.firstPressed with
    | none => rfl
    | some key => exact setRegister_val x _
  | getDelay x =>
    simp only [execute, bind_apply, get_apply, setRegister_val]
    rfl
  | setDelay x =>
    simp only [execute, bind_apply, register_val, Machine.get_v]
    rfl
  | setSound x =>
    simp only [execute, bind_apply, register_val, Machine.get_v]
    rfl
  | storeDecimal x =>
    have hlen : (decimalDigits m.v[x]).length < 2 ^ 53 := by simp [decimalDigits]
    simp only [execute, bind_apply, register_val, Machine.get_v, get_apply, Machine.execute]
    change overwrite m.index (decimalDigits m.v[x]) m = _
    rw [overwrite_apply m m.index hlen]
    cases m.memory.write m.index (decimalDigits m.v[x]) <;> rfl
  | storeBlock last => exact storeBlock_apply pc last
  | loadBlock last => exact loadBlock_apply pc last

end ChipEight.Stepwise
