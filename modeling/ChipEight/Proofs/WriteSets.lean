import ChipEight.Proofs.Calls
import ChipEight.Proofs.MemoryReads

/-! The write set of every instruction. `Instruction.writes` lists the parts of a machine that an
instruction may change; what is not in its list it leaves alone, flag register included. Of memory it
changes the bytes that it stores, of the call stack the slot that it pushes on, and behind the word of an
instruction the program counter stands, or behind the next one. -/
namespace ChipEight

/-- Sets the flag besides its result. -/
def BinaryOp.setsFlag : BinaryOp → Bool
  | .add | .sub | .subReverse | .shiftRight | .shiftLeft => true
  | .move | .or | .and | .xor => false

inductive Part
  | memory | register (k : Register) | index | slots | depth | delay | sound | screen | status | random
  deriving DecidableEq

namespace Instruction

def writes (d : Dialect) : Instruction → List Part
  | .clearScreen => [.screen]
  | .ret => [.depth]
  | .call _ => [.slots, .depth]
  | .jump _ | .jumpOffset _ | .skip _ => []
  | .loadByte x _ | .addByte x _ | .getDelay x => [.register x]
  | .combine op x _ => .register x :: if op.setsFlag then [.register 15] else []
  | .loadIndex _ | .loadGlyph _ => [.index]
  | .addIndex _ => [.index, .register 15]
  | .random x _ => [.register x, .random]
  | .draw _ _ _ => [.screen, .register 15]
  | .waitKey x => [.register x, .status]
  | .setDelay _ => [.delay]
  | .setSound _ => [.sound]
  | .storeDecimal _ => [.memory]
  | .storeBlock _ => .memory :: if d.transferAdvances then [.index] else []
  | .loadBlock last =>
    ((List.finRange 16).filter (· ≤ last)).map .register ++ if d.transferAdvances then [.index] else []

/-- How many bytes it stores, from the index on. -/
def storeSize : Instruction → Nat
  | .storeDecimal _ => 3
  | .storeBlock last => last.val + 1
  | _ => 0

/-- Goes on elsewhere than behind itself or behind the next instruction. -/
def jumps : Instruction → Bool
  | .jump _ | .call _ | .jumpOffset _ | .ret => true
  | _ => false

end Instruction

lemma Memory.length_of_read {M : Memory} {address : UInt16} {length : Nat} {data : List UInt8}
    (h : M.read address length = .ok data) : data.length = length := by
  by_cases hle : address.toNat + length ≤ 4096
  · rw [read_of_le M hle] at h
    cases h
    rw [List.length_map, List.length_range']
  · rw [read_of_gt M (Nat.lt_of_not_le hle)] at h
    cases h

lemma Memory.byte_overlaid (M : Memory) {start k : Nat} {data : List UInt8} (hk : k < data.length)
    (hle : start + data.length ≤ 4096) : (M.overlaid start data).byte (start + k) = data[k] := by
  have hlt : start + k < 4096 := by omega
  rw [byte_of_lt _ hlt, overlaid, getElem_put, if_pos (Nat.le_add_right start k),
    Nat.add_sub_cancel_left, List.getElem?_eq_getElem hk, Option.getD_some]

namespace Machine

/-- A test whose condition holds: a register is compared with a byte or another register, or the key that
it names is looked at. -/
def skips (m : Machine) : Instruction → Bool
  | .skip (.isByte x nn) => m.v.get x = nn
  | .skip (.isNotByte x nn) => m.v.get x ≠ nn
  | .skip (.same x y) => m.v.get x = m.v.get y
  | .skip (.differ x y) => m.v.get x ≠ m.v.get y
  | .skip (.keyDown x) => m.keypad.isPressed (m.v.get x).toNat = true
  | .skip (.keyUp x) => m.keypad.isPressed (m.v.get x).toNat = false
  | _ => false

lemma skips_skip (m : Machine) (c : Condition) : m.skips (.skip c) = m.holds c := by
  rw [Bool.eq_iff_iff]
  cases c <;> simp [skips, holds, get_v]

/-- The parts of `m` that are not listed are the same in `m'`. -/
structure Spares (m m' : Machine) (written : List Part) : Prop where
  memory : .memory ∉ written → m'.memory = m.memory
  register : ∀ k, .register k ∉ written → m'.v.get k = m.v.get k
  index : .index ∉ written → m'.index = m.index
  slots : .slots ∉ written → m'.stack.slots = m.stack.slots
  depth : .depth ∉ written → m'.stack.depth = m.stack.depth
  delay : .delay ∉ written → m'.timers.delay = m.timers.delay
  sound : .sound ∉ written → m'.timers.sound = m.timers.sound
  screen : .screen ∉ written → m'.screen = m.screen
  status : .status ∉ written → m'.status = m.status
  random : .random ∉ written → m'.random = m.random

variable {m m' m'' : Machine} {written : List Part}

lemma Spares.refl (m : Machine) (written : List Part) : Spares m m written :=
  ⟨fun _ => rfl, fun _ _ => rfl, fun _ => rfl, fun _ => rfl, fun _ => rfl, fun _ => rfl, fun _ => rfl,
    fun _ => rfl, fun _ => rfl, fun _ => rfl⟩

lemma Spares.trans (h : Spares m m' written) (h' : Spares m' m'' written) :
    Spares m m'' written where
  memory hn := (h'.memory hn).trans (h.memory hn)
  register k hn := (h'.register k hn).trans (h.register k hn)
  index hn := (h'.index hn).trans (h.index hn)
  slots hn := (h'.slots hn).trans (h.slots hn)
  depth hn := (h'.depth hn).trans (h.depth hn)
  delay hn := (h'.delay hn).trans (h.delay hn)
  sound hn := (h'.sound hn).trans (h.sound hn)
  screen hn := (h'.screen hn).trans (h.screen hn)
  status hn := (h'.status hn).trans (h.status hn)
  random hn := (h'.random hn).trans (h.random hn)

lemma get_setRegister (m : Machine) (x : Register) (b : UInt8) (k : Register) :
    (m.setRegister x b).v.get k = if x = k then b else m.v.get k := by
  rw [setRegister, CallStack.get_set]
  simp only [Fin.ext_iff]

lemma get_setFlag (m : Machine) (flag : Bool) :
    (m.setFlag flag).v.get 15 = if flag then 1 else 0 :=
  (get_setRegister m 15 _ 15).trans (if_pos rfl)

lemma spares_setRegister (m : Machine) {x : Register} (b : UInt8) (hx : .register x ∈ written) :
    Spares m (m.setRegister x b) written where
  __ := Spares.refl m written
  register k hk := by
    rw [get_setRegister, if_neg]
    rintro rfl
    exact hk hx

lemma spares_index (m : Machine) (a : UInt16) (h : .index ∈ written) :
    Spares m { m with index := a } written :=
  { Spares.refl m written with index := fun hn => (hn h).elim }

lemma spares_indexAfter (m : Machine) (last : Register)
    (h : m.dialect.transferAdvances = true → .index ∈ written) :
    Spares m { m with index := m.indexAfter last } written := by
  cases hd : m.dialect.transferAdvances with
  | true => exact spares_index m _ (h hd)
  | false =>
    have hindex : m.indexAfter last = m.index := by
      simp only [indexAfter, hd, Bool.false_eq_true, if_false]
    rw [hindex]
    exact Spares.refl m written

lemma spares_combine (m : Machine) (op : BinaryOp) (x y : Register) :
    Spares m (m.combine op x y) (Instruction.writes m.dialect (.combine op x y)) := by
  have hflag : (op.compute m.dialect (m.v.get x) (m.v.get y)).flag.isSome = op.setsFlag := by
    cases op <;> rfl
  simp only [combine, ← get_v, Instruction.writes]
  cases hf : (op.compute m.dialect (m.v.get x) (m.v.get y)).flag with
  | none => exact spares_setRegister m _ List.mem_cons_self
  | some flag =>
    rw [hf, Option.isSome_some] at hflag
    rw [← hflag]
    refine (spares_setRegister m _ List.mem_cons_self).trans (spares_setRegister _ _ ?_)
    exact List.mem_cons_of_mem _ List.mem_cons_self

lemma spares_loadBlock (m : Machine) {last : Register} {data : List UInt8}
    (hlength : data.length = last.val + 1) {v : Vector UInt8 16}
    (hv : ∀ k : Register, v.get k = data[k.val]?.getD (m.v.get k)) :
    Spares m { m with v := v } (Instruction.writes m.dialect (.loadBlock last)) where
  __ := Spares.refl m _
  register k hk := by
    have hgt : ¬ k ≤ last := by
      intro hle
      exact hk (List.mem_append_left _ (List.mem_map_of_mem (by simpa using hle)))
    have hnone : data[k.val]? = none := by
      rw [List.getElem?_eq_none_iff]
      omega
    change v.get k = m.v.get k
    rw [hv, hnone, Option.getD_none]

theorem execute_spares {pc : UInt16} {i : Instruction} (h : execute pc i m = .ok m') :
    Spares m m' (i.writes m.dialect) := by
  cases i with
  | clearScreen =>
    cases h
    exact { Spares.refl m _ with screen := fun hn => (hn List.mem_cons_self).elim }
  | ret =>
    simp only [execute] at h
    cases hp : m.stack.pop? with
    | none => simp [hp] at h
    | some p =>
      simp only [hp, Except.ok.injEq] at h
      subst h
      obtain ⟨-, hslots, -⟩ := CallStack.pop?_eq_some hp
      exact { Spares.refl m _ with
        slots := fun _ => hslots
        depth := fun hn => (hn List.mem_cons_self).elim }
  | call a =>
    simp only [execute] at h
    cases hp : m.stack.push? m.pc with
    | none => simp [hp] at h
    | some stack =>
      simp only [hp, Except.ok.injEq] at h
      subst h
      exact { Spares.refl m _ with
        slots := fun hn => (hn List.mem_cons_self).elim
        depth := fun hn => (hn (List.mem_cons_of_mem _ List.mem_cons_self)).elim }
  | jump a | jumpOffset a =>
    cases h
    exact { Spares.refl m _ with }
  | skip c =>
    simp only [execute, skipWhen, Except.ok.injEq] at h
    subst h
    cases m.holds c <;> exact { Spares.refl m _ with }
  | loadByte x nn | addByte x nn | getDelay x =>
    cases h
    exact spares_setRegister m _ List.mem_cons_self
  | combine op x y =>
    cases h
    exact spares_combine m op x y
  | loadIndex _ | loadGlyph _ =>
    cases h
    exact spares_index m _ List.mem_cons_self
  | addIndex x =>
    cases h
    exact (spares_index m _ List.mem_cons_self).trans
      (spares_setRegister _ _ (List.mem_cons_of_mem _ List.mem_cons_self))
  | random x mask =>
    cases h
    have hrandom : Spares m { m with random := m.random.next.2 } [.register x, .random] :=
      { Spares.refl m _ with
        random := fun hn => (hn (List.mem_cons_of_mem _ List.mem_cons_self)).elim }
    exact hrandom.trans (spares_setRegister _ _ List.mem_cons_self)
  | draw x y height =>
    simp only [execute, map_eq_ok_iff] at h
    obtain ⟨sprite, -, rfl⟩ := h
    have hscreen (screen : Screen) :
        Spares m { m with screen := screen } [.screen, .register 15] :=
      { Spares.refl m _ with screen := fun hn => (hn List.mem_cons_self).elim }
    exact (hscreen _).trans (spares_setRegister _ _ (List.mem_cons_of_mem _ List.mem_cons_self))
  | waitKey x =>
    simp only [execute] at h
    cases hk : m.keypad.firstPressed with
    | some key =>
      simp only [hk, Except.ok.injEq] at h
      subst h
      exact spares_setRegister m _ List.mem_cons_self
    | none =>
      simp only [hk, Except.ok.injEq] at h
      subst h
      exact { Spares.refl m _ with
        status := fun hn => (hn (List.mem_cons_of_mem _ List.mem_cons_self)).elim }
  | setDelay x =>
    cases h
    exact { Spares.refl m _ with delay := fun hn => (hn List.mem_cons_self).elim }
  | setSound x =>
    cases h
    exact { Spares.refl m _ with sound := fun hn => (hn List.mem_cons_self).elim }
  | storeDecimal x =>
    simp only [execute, map_eq_ok_iff] at h
    obtain ⟨memory, -, rfl⟩ := h
    exact { Spares.refl m _ with memory := fun hn => (hn List.mem_cons_self).elim }
  | storeBlock last =>
    simp only [execute, map_eq_ok_iff] at h
    obtain ⟨memory, -, rfl⟩ := h
    have hindex : Spares m { m with index := m.indexAfter last }
        (Instruction.writes m.dialect (.storeBlock last)) :=
      spares_indexAfter m last fun hd => by simp [Instruction.writes, hd]
    exact { hindex with memory := fun hn => (hn List.mem_cons_self).elim }
  | loadBlock last =>
    simp only [execute, map_eq_ok_iff] at h
    obtain ⟨data, hread, rfl⟩ := h
    have hindex : Spares m { m with index := m.indexAfter last }
        (Instruction.writes m.dialect (.loadBlock last)) :=
      spares_indexAfter m last fun hd => by simp [Instruction.writes, hd]
    exact hindex.trans (spares_loadBlock _ (Memory.length_of_read hread) fun k =>
      Vector.getElem_ofFn k.isLt)

lemma pc_execute {pc : UInt16} {i : Instruction} (h : execute pc i m = .ok m')
    (hjumps : i.jumps = false) : m'.pc = if m.skips i then m.pc + 2 else m.pc := by
  cases i with
  | skip c =>
    simp only [execute, skipWhen, Except.ok.injEq] at h
    subst h
    rw [skips_skip]
    cases m.holds c <;> rfl
  | jump _ | call _ | jumpOffset _ | ret => cases hjumps
  | waitKey x =>
    obtain ⟨-, hflow⟩ := execute_flow h
    cases hflow with
    | straight pc _ _ => exact pc
    | waits _ heq =>
      subst heq
      rfl
  | _ =>
    obtain ⟨-, hflow⟩ := execute_flow h
    cases hflow with
    | straight pc _ _ => exact pc

lemma length_storesOf (m : Machine) (i : Instruction) : (m.storesOf i).length = i.storeSize := by
  cases i with
  | storeBlock last => exact Action.length_take_registers m.v last
  | _ => rfl

/-- What an instruction that the machine `m` has executed leaves of it in `m'`. -/
structure WritesOnly (m : Machine) (i : Instruction) (m' : Machine) : Prop
    extends SameSetting m m', Spares m m' (i.writes m.dialect) where
  bytes : ∀ a, m'.memory.byte a ≠ m.memory.byte a →
    m.index.toNat ≤ a ∧ a < m.index.toNat + i.storeSize
  decimal : ∀ x, i = .storeDecimal x → ∃ hundreds tens ones : UInt8,
    m'.memory.byte m.index.toNat = hundreds ∧ m'.memory.byte (m.index.toNat + 1) = tens ∧
      m'.memory.byte (m.index.toNat + 2) = ones ∧ hundreds ≤ 9 ∧ tens ≤ 9 ∧ ones ≤ 9 ∧
        100 * hundreds.toNat + 10 * tens.toNat + ones.toNat = (m.v.get x).toNat
  slot : ∀ k, m'.stack.slots.get k ≠ m.stack.slots.get k → k.val = m.stack.depth.val
  pushed : ∀ a, i = .call a → ∃ k : Fin 16, k.val = m.stack.depth.val ∧
    (m'.stack.slots.get k).toNat = m.pc.toNat + 2
  waits : m'.status ≠ m.status →
    m.keypad.firstPressed = none ∧ ∃ x, i = .waitKey x ∧ m'.status = .awaitingKey x
  pc : i.jumps = false → m'.pc.toNat = m.pc.toNat + if m.skips i then 4 else 2

section
variable {pc : UInt16} {i : Instruction}

lemma waits_execute (h : execute pc i m = .ok m') (hn : m'.status ≠ m.status) :
    m.keypad.firstPressed = none ∧ ∃ x, i = .waitKey x ∧ m'.status = .awaitingKey x := by
  obtain ⟨-, hflow⟩ := execute_flow h
  cases hflow with
  | straight _ _ status | skips _ _ _ status | jumps _ _ status | jumpsOffset _ _ status
  | calls _ _ status | returns _ status => exact absurd status hn
  | @waits x released heq =>
    subst heq
    exact ⟨released, x, rfl, rfl⟩

lemma memory_execute (h : execute pc i m = .ok m') :
    m'.memory = m.memory.overlaid m.index.toNat (m.storesOf i) := by
  have hsame : execute pc i m = _ :=
    execute_withMemory (m := m) (M := m.memory) rfl (fun _ _ => rfl) pc
  rw [h] at hsame
  exact congrArg memory (Except.ok.inj hsame)

lemma bytes_execute (h : execute pc i m = .ok m') {a : Nat}
    (ha : m'.memory.byte a ≠ m.memory.byte a) :
    m.index.toNat ≤ a ∧ a < m.index.toNat + i.storeSize := by
  rw [memory_execute h] at ha
  rw [← length_storesOf m i, ← List.mem_range'_1]
  apply Classical.byContradiction
  intro hout
  exact ha (Memory.byte_overlaid_of_not_mem hout)

lemma decimal_execute {x : Register} (h : execute pc (.storeDecimal x) m = .ok m') :
    ∃ hundreds tens ones : UInt8,
      m'.memory.byte m.index.toNat = hundreds ∧ m'.memory.byte (m.index.toNat + 1) = tens ∧
        m'.memory.byte (m.index.toNat + 2) = ones ∧ hundreds ≤ 9 ∧ tens ≤ 9 ∧ ones ≤ 9 ∧
          100 * hundreds.toNat + 10 * tens.toNat + ones.toNat = (m.v.get x).toNat := by
  have hle : m.index.toNat + (decimalDigits (m.v.get x)).length ≤ 4096 := by
    apply Classical.byContradiction
    intro hgt
    have herror : execute pc (.storeDecimal x) m = .error (.outOfBounds (max m.index.toNat 4096)) :=
      (execute_eq_error_iff _ _ _ _).2 ⟨rfl, Nat.lt_of_not_le hgt⟩
    exact nomatch herror.symm.trans h
  have hbyte (k : Nat) (hk : k < (decimalDigits (m.v.get x)).length) :
      m'.memory.byte (m.index.toNat + k) = (decimalDigits (m.v.get x))[k] := by
    rw [memory_execute h]
    exact Memory.byte_overlaid _ hk hle
  have hlength : (decimalDigits (m.v.get x)).length = 3 := rfl
  have hdigit := decimalDigits_le_nine (m.v.get x)
  refine ⟨_, _, _, hbyte 0 (by omega), hbyte 1 (by omega), hbyte 2 (by omega), ?_, ?_, ?_,
    decimalDigits_sum (m.v.get x)⟩
  · exact hdigit _ (List.getElem_mem _)
  · exact hdigit _ (List.getElem_mem _)
  · exact hdigit _ (List.getElem_mem _)

lemma spares_advance (m : Machine) (written : List Part) : Spares m m.advance written :=
  { Spares.refl m written with }

lemma execute_of_next? (hn : m.next? = some i) (hok : m.step.result = .ok ()) :
    execute m.pc i m.advance = .ok m.step.machine := by
  obtain ⟨w, -, hstep⟩ := step_of_next? hn
  rw [hstep, issue] at hok ⊢
  cases he : execute m.pc i m.advance with
  | error f =>
    simp only [he, result_fail] at hok
    cases hok
  | ok done => rfl

lemma toNat_pc_step (hn : m.next? = some i) (hok : m.step.result = .ok ())
    (hjumps : i.jumps = false) :
    m.step.machine.pc.toNat = m.pc.toNat + if m.skips i then 4 else 2 := by
  obtain ⟨-, w, hw, -⟩ := (next?_eq_some_iff m i).1 hn
  obtain ⟨hpc, hle⟩ := toNat_pc_advance hw
  have hskips : m.advance.skips i = m.skips i := by
    cases i with
    | skip c => cases c <;> rfl
    | _ => rfl
  rw [pc_execute (execute_of_next? hn hok) hjumps, hskips]
  cases m.skips i with
  | false => exact hpc
  | true =>
    simp only [if_true, UInt16.toNat_add, UInt16.reduceToNat, hpc]
    omega

lemma push_of_call {a : Address} (hn : m.next? = some (.call a)) (hok : m.step.result = .ok ()) :
    m.stack.push? (m.pc + 2) = some m.step.machine.stack := by
  have hs := stackStep m
  rw [stackMove_eq_enters_iff.2 ⟨⟨a, hn⟩, hok⟩] at hs
  obtain ⟨push⟩ := hs
  exact push

lemma slot_step (hn : m.next? = some i) (hok : m.step.result = .ok ()) {k : Fin 16}
    (hk : m.step.machine.stack.slots.get k ≠ m.stack.slots.get k) :
    k.val = m.stack.depth.val := by
  by_cases hcall : ∃ a, i = .call a
  · obtain ⟨a, rfl⟩ := hcall
    obtain ⟨-, hslots⟩ := CallStack.push?_eq_some (push_of_call hn hok)
    rw [hslots] at hk
    apply Classical.byContradiction
    intro hne
    rw [if_neg (Ne.symm hne)] at hk
    exact hk rfl
  · have hsame := (execute_spares (execute_of_next? hn hok)).slots (by
      cases i with
      | call a => exact absurd ⟨a, rfl⟩ hcall
      | _ => simp [Instruction.writes])
    exact absurd (congrArg (·.get k) hsame) hk

lemma pushed_step {a : Address} (hn : m.next? = some (.call a)) (hok : m.step.result = .ok ()) :
    ∃ k : Fin 16, k.val = m.stack.depth.val ∧
      (m.step.machine.stack.slots.get k).toNat = m.pc.toNat + 2 := by
  obtain ⟨hdepth, hslots⟩ := CallStack.push?_eq_some (push_of_call hn hok)
  have hlt : m.stack.depth.val < 16 := by
    have := m.step.machine.stack.depth.isLt
    omega
  obtain ⟨-, w, hw, -⟩ := (next?_eq_some_iff m _).1 hn
  refine ⟨⟨m.stack.depth.val, hlt⟩, rfl, ?_⟩
  rw [hslots, if_pos rfl]
  exact (toNat_pc_advance hw).1

end

/-- A step of a running machine that goes well executes an instruction and writes no more than that. -/
theorem step_writes_only (hs : m.status = .running) (hok : m.step.result = .ok ()) :
    ∃ i, m.next? = some i ∧ WritesOnly m i m.step.machine := by
  obtain ⟨i, hn⟩ := exists_next?_of_ok hs hok
  have h := execute_of_next? hn hok
  obtain ⟨hset, -⟩ := execute_flow h
  refine ⟨i, hn, ?_⟩
  exact {
    toSameSetting := ⟨hset.programBase, hset.fontBase, hset.keypad, hset.dialect, hset.lastFailure⟩
    toSpares := (spares_advance m _).trans (execute_spares h)
    bytes := fun a ha => bytes_execute (m := m.advance) h ha
    decimal := fun x hx => by
      subst hx
      exact decimal_execute (m := m.advance) h
    slot := fun k hk => slot_step hn hok hk
    pushed := fun a ha => by
      subst ha
      exact pushed_step hn hok
    waits := waits_execute (m := m.advance) h
    pc := toNat_pc_step hn hok }

/-- The digits of 234 go to the last three bytes of memory. -/
def digitsNext : Machine := (start ⟨fun _ => 0, 0⟩ {}).after
  [.load [0x61, 0xea, 0xaf, 0xfd, 0xf1, 0x33], .step, .step]

theorem step_writes_only_digits :
    digitsNext.step.machine.memory.byte 0xffc = digitsNext.memory.byte 0xffc ∧
      (∃ hundreds tens ones : UInt8, digitsNext.step.machine.memory.byte 0xffd = hundreds ∧
        digitsNext.step.machine.memory.byte 0xffe = tens ∧
          digitsNext.step.machine.memory.byte 0xfff = ones ∧
            100 * hundreds.toNat + 10 * tens.toNat + ones.toNat = 234) ∧
      digitsNext.step.machine.v.get 15 = digitsNext.v.get 15 ∧
      digitsNext.step.machine.pc.toNat = 0x206 := by
  have facts : digitsNext.status = .running ∧ digitsNext.step.result = .ok () ∧
      digitsNext.next? = some (.storeDecimal 1) ∧ digitsNext.index.toNat = 0xffd ∧
      (digitsNext.v.get 1).toNat = 234 ∧ digitsNext.pc.toNat = 0x204 := by
    decide +kernel
  obtain ⟨hs, hok, hnext, hindex, hv, hpc⟩ := facts
  obtain ⟨i, hi, hwrites⟩ := step_writes_only hs hok
  obtain rfl := Option.some.inj (hnext.symm.trans hi)
  obtain ⟨hundreds, tens, ones, hh, ht, ho, -, -, -, hsum⟩ := hwrites.decimal 1 rfl
  rw [hindex] at hh ht ho
  rw [hv] at hsum
  refine ⟨?_, ⟨hundreds, tens, ones, hh, ht, ho, hsum⟩, hwrites.register 15 ?_, ?_⟩
  · apply Classical.byContradiction
    intro hne
    have hle := (hwrites.bytes _ hne).1
    omega
  · simp [Instruction.writes]
  · rw [hwrites.pc rfl, hpc]
    rfl

end Machine

end ChipEight
