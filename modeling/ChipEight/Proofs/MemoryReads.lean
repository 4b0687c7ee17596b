import ChipEight.Proofs.Asides
import ChipEight.Proofs.Frames
import ChipEight.Proofs.PowerCycle

/-! Which bytes a step reads: the word at the program counter, the rows of a sprite that fall on the
screen, the registers of a block. Nothing it does depends on any other byte. Whether an access is refused
depends on no byte at all, and what is stored comes from the registers, so a byte that a step writes is
the same from then on whatever it was. -/
namespace ChipEight

namespace Memory

/-- The addresses of a range, and none of a range that is refused. -/
def span (address : UInt16) (length : Nat) : List Nat :=
  if address.toNat + length ≤ 4096 then List.range' address.toNat length else []

/-- The memory with `data` over its bytes from `start` on. -/
def overlaid (M : Memory) (start : Nat) (data : List UInt8) : Memory :=
  { M with bytes := put M.bytes start data }

variable {M N : Memory}

lemma span_of_le {address : UInt16} {length : Nat} (h : address.toNat + length ≤ 4096) :
    span address length = List.range' address.toNat length := if_pos h

lemma read_congr {address : UInt16} {length : Nat}
    (h : ∀ a ∈ span address length, N.byte a = M.byte a) :
    N.read address length = M.read address length := by
  by_cases hle : address.toNat + length ≤ 4096
  · rw [span_of_le hle] at h
    rw [read_of_le N hle, read_of_le M hle, List.map_congr_left h]
  · rw [read_of_gt N (Nat.lt_of_not_le hle), read_of_gt M (Nat.lt_of_not_le hle)]

lemma word_congr {address : UInt16} (h : ∀ a ∈ span address 2, N.byte a = M.byte a) :
    N.word address = M.word address := by
  by_cases hle : address.toNat + 2 ≤ 4096
  · rw [span_of_le hle] at h
    have hhigh : N.byte address.toNat = M.byte address.toNat := h _ (by simp)
    have hlow : N.byte (address.toNat + 1) = M.byte (address.toNat + 1) := h _ (by simp)
    rw [word_of_le N hle, word_of_le M hle, wordAt, wordAt, hhigh, hlow]
  · rw [word_of_gt N (Nat.lt_of_not_le hle), word_of_gt M (Nat.lt_of_not_le hle)]

lemma write_eq_map (M : Memory) (address : UInt16) (data : List UInt8) :
    M.write address data =
      (check address data.length).map fun _ => M.overlaid address.toNat data := by
  rw [write]
  cases check address data.length <;> rfl

lemma byte_of_ge (M : Memory) {a : Nat} (h : 4096 ≤ a) : M.byte a = 0 := by
  rw [byte, Vector.getElem?_eq_none h, Option.getD_none]

lemma byte_overlaid_of_not_mem {start : Nat} {data : List UInt8} {a : Nat}
    (h : a ∉ List.range' start data.length) : (M.overlaid start data).byte a = M.byte a := by
  obtain hlt | hge := Nat.lt_or_ge a 4096
  · rw [byte_of_lt _ hlt, byte_of_lt _ hlt, overlaid, getElem_put]
    rw [List.mem_range'_1] at h
    by_cases hle : start ≤ a
    · have hnone : data[a - start]? = none := by
        rw [List.getElem?_eq_none_iff]
        omega
      rw [if_pos hle, hnone, Option.getD_none]
    · rw [if_neg hle]
  · rw [byte_of_ge _ hge, byte_of_ge _ hge]

lemma byte_overlaid_of_mem {start : Nat} {data : List UInt8} {a : Nat}
    (h : a ∈ List.range' start data.length) :
    (N.overlaid start data).byte a = (M.overlaid start data).byte a := by
  obtain hlt | hge := Nat.lt_or_ge a 4096
  · rw [List.mem_range'_1] at h
    have hsome : a - start < data.length := by omega
    simp only [byte_of_lt _ hlt, overlaid, getElem_put, if_pos h.1,
      List.getElem?_eq_getElem hsome, Option.getD_some]
  · rw [byte_of_ge _ hge, byte_of_ge _ hge]

lemma byte_overlaid_congr {start : Nat} {data : List UInt8} {a : Nat}
    (h : N.byte a = M.byte a ∨ a ∈ List.range' start data.length) :
    (N.overlaid start data).byte a = (M.overlaid start data).byte a := by
  by_cases hmem : a ∈ List.range' start data.length
  · exact byte_overlaid_of_mem hmem
  · rw [byte_overlaid_of_not_mem hmem, byte_overlaid_of_not_mem hmem]
    exact h.resolve_right hmem

end Memory

namespace Machine

def withMemory (m : Machine) (memory : Memory) : Machine := { m with memory := memory }

/-- The addresses that an instruction reads. -/
def readsOf (m : Machine) : Instruction → List Nat
  | .draw _ y height => Memory.span m.index (m.visibleRows y height)
  | .loadBlock last => Memory.span m.index (last.val + 1)
  | _ => []

/-- What an instruction puts into memory, from the index on. -/
def storesOf (m : Machine) : Instruction → List UInt8
  | .storeDecimal x => decimalDigits (m.v.get x)
  | .storeBlock last => m.v.toList.take (last.val + 1)
  | _ => []

def reads (m : Machine) : List Nat :=
  Memory.span m.pc 2 ++
    match m.next? with
    | some i => m.readsOf i
    | none => []

/-- What the next step stores, which is nothing if it fails. -/
def stores (m : Machine) : List UInt8 :=
  match m.next?, m.step.result with
  | some i, .ok () => m.storesOf i
  | _, _ => []

def writes (m : Machine) : List Nat := List.range' m.index.toNat m.stores.length

variable {m m' : Machine} {M : Memory}

lemma overlooks_withMemory (hfont : M.fontBase = m.memory.fontBase) {i : Instruction}
    (h : ∀ a ∈ m.readsOf i, M.byte a = m.memory.byte a) (hstores : m.storesOf i = []) :
    m.Overlooks { memory := fun _ => M } i := by
  cases i with
  | loadGlyph x => rw [Overlooks, Memory.glyphAddress, hfont, Memory.glyphAddress]
  | draw x y height => exact Memory.read_congr h
  | loadBlock last => exact ⟨Memory.read_congr h, rfl⟩
  | skip c => cases c <;> rfl
  | storeDecimal _ => cases hstores
  | storeBlock last =>
    have hlength : (m.v.toList.take (last.val + 1)).length = 0 := congrArg List.length hstores
    rw [Action.length_take_registers] at hlength
    cases hlength
  | combine _ _ _ | getDelay _ | setDelay _ | setSound _ | waitKey _ => rfl
  | _ => trivial

lemma execute_withMemory (hfont : M.fontBase = m.memory.fontBase) {i : Instruction}
    (h : ∀ a ∈ m.readsOf i, M.byte a = m.memory.byte a) (pc : UInt16) :
    execute pc i (m.withMemory M) =
      (execute pc i m).map (·.withMemory (M.overlaid m.index.toNat (m.storesOf i))) := by
  cases i with
  | storeDecimal x =>
    change (M.write m.index (decimalDigits (m.v.get x))).map _ =
      ((m.memory.write m.index (decimalDigits (m.v.get x))).map _).map _
    rw [Memory.write_eq_map, Memory.write_eq_map]
    cases Memory.check m.index (decimalDigits (m.v.get x)).length <;> rfl
  | storeBlock last =>
    change (M.write m.index (m.v.toList.take (last.val + 1))).map _ =
      ((m.memory.write m.index (m.v.toList.take (last.val + 1))).map _).map _
    rw [Memory.write_eq_map, Memory.write_eq_map]
    cases Memory.check m.index (m.v.toList.take (last.val + 1)).length <;> rfl
  | _ => exact execute_alter (overlooks_withMemory hfont h rfl) pc

theorem step_withMemory (hs : m.status = .running) (hfont : M.fontBase = m.memory.fontBase)
    (hreads : ∀ a ∈ m.reads, M.byte a = m.memory.byte a) :
    (m.withMemory M).step.result = m.step.result ∧ (m.withMemory M).step.log = m.step.log ∧
      (m.withMemory M).step.machine =
        m.step.machine.withMemory (M.overlaid m.index.toNat m.stores) := by
  have halong : GoesAlong (withMemory · M)
      (fun i => (withMemory · (M.overlaid m.index.toNat (m.storesOf i)))) m := by
    refine (aside_alter { memory := fun _ => M }).goesAlong (fun _ _ => rfl) hs ?_ ?_
    · exact Memory.word_congr fun a ha => hreads a (List.mem_append_left _ ha)
    · intro i hi
      refine execute_withMemory (m := m.advance) hfont (fun a ha => hreads a ?_) m.pc
      rw [reads, hi]
      exact List.mem_append_right _ ha
  refine ⟨halong.result, halong.log, ?_⟩
  unfold stores
  cases hr : m.step.result with
  | error e =>
    rw [halong.failed e hr]
    cases m.next? <;> rfl
  | ok u =>
    obtain ⟨i, hi⟩ := exists_next?_of_ok hs hr
    rw [halong.executed i hi hr, hi]

lemma memory_step (hs : m.status = .running) :
    m.step.machine.memory = m.memory.overlaid m.index.toNat m.stores := by
  obtain ⟨-, -, hmachine⟩ := step_withMemory (M := m.memory) hs rfl fun _ _ => rfl
  exact congrArg memory hmachine

/-- Two machines that a step takes from two memories to the same, but for the bytes that were different
before and that neither step has written. -/
structure StepsAlike (m m' : Machine) : Prop where
  result : m'.step.result = m.step.result
  log : m'.step.log = m.step.log
  rest : m'.step.machine = m.step.machine.withMemory m'.step.machine.memory
  writes : m'.writes = m.writes
  kept : ∀ a, a ∉ m.writes → m.step.machine.memory.byte a = m.memory.byte a ∧
    m'.step.machine.memory.byte a = m'.memory.byte a
  alike : ∀ a, m'.memory.byte a = m.memory.byte a ∨ a ∈ m.writes →
    m'.step.machine.memory.byte a = m.step.machine.memory.byte a

lemma stores_withMemory (hs : m.status = .running) (hfont : M.fontBase = m.memory.fontBase)
    (hreads : ∀ a ∈ m.reads, M.byte a = m.memory.byte a) :
    (m.withMemory M).stores = m.stores := by
  obtain ⟨hresult, -, -⟩ := step_withMemory hs hfont hreads
  have hword : (m.withMemory M).memory.word (m.withMemory M).pc = m.memory.word m.pc :=
    Memory.word_congr fun a ha => hreads a (List.mem_append_left _ ha)
  have hstatus : (m.withMemory M).status = m.status := rfl
  have hnext : (m.withMemory M).next? = m.next? := by
    rw [next?, next?, hword, hstatus]
  rw [stores, stores, hnext, hresult]
  rfl

/-- A running machine reads the word at its program counter and, if that stands for such an instruction,
the visible rows of a sprite or the block it loads. A step does the same on all memories that agree about
these bytes. -/
theorem steps_alike_of_reads_agree (hm : m.Reachable) (hm' : m'.Reachable)
    (hs : m.status = .running) (hsame : m' = m.withMemory m'.memory)
    (hreads : ∀ a ∈ m.reads, m'.memory.byte a = m.memory.byte a) : StepsAlike m m' := by
  have hfont : m'.memory.fontBase = m.memory.fontBase :=
    hm'.sound.fontBase.trans hm.sound.fontBase.symm
  obtain ⟨hresult, hlog, hmachine⟩ := step_withMemory hs hfont hreads
  have hstores := stores_withMemory hs hfont hreads
  rw [← hsame] at hresult hlog hmachine hstores
  have hindex : m'.index = m.index := by
    rw [hsame]
    rfl
  have hmemory : m.step.machine.memory = m.memory.overlaid m.index.toNat m.stores := memory_step hs
  have hmemory' : m'.step.machine.memory = m'.memory.overlaid m.index.toNat m.stores :=
    congrArg memory hmachine
  refine ⟨hresult, hlog, ?_, ?_, ?_, ?_⟩
  · rw [hmemory']
    exact hmachine
  · rw [writes, writes, hindex, hstores]
  · intro a ha
    rw [hmemory, hmemory']
    exact ⟨Memory.byte_overlaid_of_not_mem ha, Memory.byte_overlaid_of_not_mem ha⟩
  · intro a ha
    rw [hmemory, hmemory']
    exact Memory.byte_overlaid_congr ha

/-- A sprite of three rows, of which two fall on the screen, and all three written over after that. -/
def clipping (row : UInt8) : Machine :=
  (start ⟨fun _ => 0, 0⟩ {}).after
    [.load [0x61, 0x1e, 0xa2, 0x08, 0xd0, 0x13, 0xf2, 0x55, 0xc0, 0xc0, row]]

lemma clipping_eq_withMemory (row row' : UInt8) :
    clipping row' = (clipping row).withMemory (clipping row').memory := by
  simp only [clipping, after, List.foldl_cons, List.foldl_nil, perform]
  rw [load_start, load_start]
  · rfl
  · exact Nat.le_of_ble_eq_true rfl
  · exact Nat.le_of_ble_eq_true rfl

lemma reachable_clipping (row : UInt8) (n : Nat) : ((clipping row).afterSteps n).Reachable :=
  ⟨_, _, _, (after_append _ _ _).symm⟩

/-- With another third row every step does the same, and in the end there is no difference left. -/
theorem steps_alike_of_reads_agree_clipping :
    (clipping 7).memory.byte 0x20a ≠ (clipping 9).memory.byte 0x20a ∧
      ((clipping 7).afterSteps 2).reads = [0x204, 0x205, 0x208, 0x209] ∧
      (∀ n < 4, StepsAlike ((clipping 7).afterSteps n) ((clipping 9).afterSteps n)) ∧
      ((clipping 7).afterSteps 4).memory.byte 0x20a =
        ((clipping 9).afterSteps 4).memory.byte 0x20a := by
  have facts : (clipping 7).memory.byte 0x20a ≠ (clipping 9).memory.byte 0x20a ∧
      ((clipping 7).afterSteps 2).reads = [0x204, 0x205, 0x208, 0x209] ∧
      ((clipping 7).afterSteps 4).memory.byte 0x20a =
        ((clipping 9).afterSteps 4).memory.byte 0x20a ∧
      ∀ n < 4, ((clipping 7).afterSteps n).status = .running ∧
        ∀ a ∈ ((clipping 7).afterSteps n).reads,
          ((clipping 9).afterSteps n).memory.byte a =
            ((clipping 7).afterSteps n).memory.byte a := by
    decide +kernel
  obtain ⟨hdiffer, hreads, hend, hsteps⟩ := facts
  have hsame : ∀ n ≤ 3, (clipping 9).afterSteps n =
      ((clipping 7).afterSteps n).withMemory ((clipping 9).afterSteps n).memory := by
    intro n hn
    induction n with
    | zero =>
      have hzero : ∀ m : Machine, m.afterSteps 0 = m := fun _ => rfl
      rw [hzero, hzero]
      exact clipping_eq_withMemory 7 9
    | succ n ih =>
      obtain ⟨hs, hagree⟩ := hsteps n (by omega)
      rw [afterSteps_snoc, afterSteps_snoc]
      exact (steps_alike_of_reads_agree (reachable_clipping 7 n) (reachable_clipping 9 n) hs
        (ih (by omega)) hagree).rest
  refine ⟨hdiffer, hreads, ?_, hend⟩
  intro n hn
  obtain ⟨hs, hagree⟩ := hsteps n hn
  exact steps_alike_of_reads_agree (reachable_clipping 7 n) (reachable_clipping 9 n) hs
    (hsame n (by omega)) hagree

end Machine

end ChipEight
