import ChipEight.Execution
import ChipEight.Proofs.Ranges
import Mathlib.Algebra.Group.Nat.Defs

/-! Actions on a machine in place. An action changes the machine as it goes; it may fail, and then what
it has done so far stays done, and it is trapped where it would leave an array or a number would not
fit. Each basic action comes with the one equation that says when it is not trapped. -/
namespace ChipEight

inductive Outcome (α : Type)
  | trapped
  | failed (failure : Failure) (machine : Machine)
  | done (value : α) (machine : Machine)

/-- Done with a new machine, or failed with the old one as it was. -/
def Outcome.ofExcept (m : Machine) : Except Failure Machine → Outcome Unit
  | .ok m' => .done () m'
  | .error f => .failed f m

def Action (α : Type) : Type := Machine → Outcome α

namespace Action

def bind {α β : Type} (x : Action α) (f : α → Action β) : Action β := fun m =>
  match x m with
  | .trapped => .trapped
  | .failed e m => .failed e m
  | .done a m => f a m

instance : Monad Action where
  pure a := fun m => .done a m
  bind := bind

variable {α β : Type} {m : Machine}

def trap : Action α := fun _ => .trapped

def fail (f : Failure) : Action α := fun m => .failed f m

def get (f : Machine → α) : Action α := fun m => .done (f m) m

def modify (f : Machine → Machine) : Action Unit := fun m => .done () (f m)

/-- Something that has to be there. -/
def found : Option α → Action α
  | some a => pure a
  | none => trap

/-- A condition that has to hold. -/
def require (p : Prop) [Decidable p] : Action Unit := if p then pure () else trap

lemma pure_apply (a : α) : (pure a : Action α) m = .done a m := rfl

lemma bind_apply (x : Action α) (f : α → Action β) : (x >>= f) m =
    match x m with
    | .trapped => .trapped
    | .failed e m => .failed e m
    | .done a m => f a m := rfl

lemma bind_of_done {x : Action α} {f : α → Action β} {m' : Machine} {a : α}
    (h : x m = .done a m') : (x >>= f) m = f a m' := by
  rw [bind_apply, h]

lemma fail_apply (f : Failure) : (fail f : Action α) m = .failed f m := rfl

lemma get_apply (f : Machine → α) : get f m = .done (f m) m := rfl

lemma modify_apply (f : Machine → Machine) : modify f m = .done () (f m) := rfl

lemma found_some (a : α) : found (some a) = pure a := rfl

lemma require_of {p : Prop} [Decidable p] (h : p) : require p = pure () := if_pos h

/-- A sum of two addresses that has to stay below 65536. -/
def add (a b : UInt16) : Action UInt16 := do
  require (a.toNat + b.toNat < 65536)
  pure (a + b)

def mul (a b : UInt16) : Action UInt16 := do
  require (a.toNat * b.toNat < 65536)
  pure (a * b)

/-- A sum of two sizes, which are 64-bit numbers. -/
def addSize (a b : Nat) : Action Nat := do
  require (a + b < 2 ^ 64)
  pure (a + b)

def subSize (a b : Nat) : Action Nat := do
  require (b ≤ a)
  pure (a - b)

lemma add_of_lt {a b : UInt16} (h : a.toNat + b.toNat < 65536) : add a b = pure (a + b) := by
  simp only [add, require_of h]
  rfl

lemma mul_of_lt {a b : UInt16} (h : a.toNat * b.toNat < 65536) : mul a b = pure (a * b) := by
  simp only [mul, require_of h]
  rfl

lemma addSize_of_lt {a b : Nat} (h : a + b < 2 ^ 64) : addSize a b = pure (a + b) := by
  simp only [addSize, require_of h]
  rfl

lemma subSize_of_le {a b : Nat} (h : b ≤ a) : subSize a b = pure (a - b) := by
  simp only [subSize, require_of h]
  rfl

def register (x : Nat) : Action UInt8 := fun m => found m.v[x]? m

def setRegister (x : Nat) (b : UInt8) : Action Unit := fun m =>
  if h : x < 16 then .done () { m with v := m.v.set x b } else .trapped

def setFlag (flag : Bool) : Action Unit := setRegister 15 (if flag then 1 else 0)

def setPc (a : UInt16) : Action Unit := modify fun m => { m with pc := a }

def setIndex (a : UInt16) : Action Unit := modify fun m => { m with index := a }

lemma register_val (x : Register) : register x.val m = .done (m.v.get x) m := by
  simp [register, found_some, pure_apply, Machine.get_v]

lemma setRegister_val (x : Register) (b : UInt8) :
    setRegister x.val b m = .done () (m.setRegister x b) := by
  simp [setRegister, Machine.setRegister]

lemma setFlag_apply (flag : Bool) : setFlag flag m = .done () (m.setFlag flag) :=
  setRegister_val 15 _

/-- The first `n` registers. -/
def registers (n : Nat) : Action (List UInt8) := do
  require (n ≤ 16)
  get fun m => m.v.toList.take n

/-- Puts `data` into the registers from `k` on. -/
def setRegisters (k : Nat) : List UInt8 → Action Unit
  | [] => pure ()
  | b :: data => do
    setRegister k b
    setRegisters (k + 1) data

lemma registers_of_le {n : Nat} (h : n ≤ 16) :
    registers n m = .done (m.v.toList.take n) m := by
  simp only [registers, require_of h]
  rfl

lemma length_take_registers (v : Vector UInt8 16) (last : Register) :
    (v.toList.take (last.val + 1)).length = last.val + 1 := by
  rw [List.length_take, Vector.length_toList]
  exact Nat.min_eq_left (by omega)

/-- A register file with `data` over its registers from `k` on. -/
def overlaid (v : Vector UInt8 16) (k : Nat) (data : List UInt8) : Vector UInt8 16 :=
  Vector.ofFn fun j : Register => if k ≤ j.val then data[j.val - k]?.getD (v.get j) else v.get j

lemma getElem_overlaid (v : Vector UInt8 16) (k : Nat) (data : List UInt8) {j : Nat} (hj : j < 16) :
    (overlaid v k data)[j] = if k ≤ j then data[j - k]?.getD v[j] else v[j] := by
  rw [overlaid, Vector.getElem_ofFn]
  rfl

lemma overlaid_nil (v : Vector UInt8 16) (k : Nat) : overlaid v k [] = v := by
  ext j hj
  simp [getElem_overlaid]

lemma overlaid_set (v : Vector UInt8 16) {k : Nat} (hk : k < 16) (b : UInt8)
    (data : List UInt8) : overlaid (v.set k b) (k + 1) data = overlaid v k (b :: data) := by
  ext j hj : 1
  rw [getElem_overlaid, getElem_overlaid]
  rcases Nat.lt_trichotomy k j with hlt | rfl | hlt
  · have hsub : j - k = j - (k + 1) + 1 := by omega
    have hle : k + 1 ≤ j := hlt
    have hle' : k ≤ j := Nat.le_of_lt hlt
    rw [if_pos hle, if_pos hle', hsub, List.getElem?_cons_succ,
      Vector.getElem_set_ne hk hj (Nat.ne_of_lt hlt)]
  · have hle : ¬ k + 1 ≤ k := by omega
    rw [if_neg hle, if_pos (Nat.le_refl k), Nat.sub_self, List.getElem?_cons_zero,
      Vector.getElem_set_self, Option.getD_some]
  · have hle : ¬ k ≤ j := by omega
    have hle' : ¬ k + 1 ≤ j := by omega
    rw [if_neg hle, if_neg hle', Vector.getElem_set_ne hk hj (Nat.ne_of_gt hlt)]

lemma setRegisters_of_le {k : Nat} {data : List UInt8} (h : k + data.length ≤ 16) :
    setRegisters k data m = .done () { m with v := overlaid m.v k data } := by
  induction data generalizing k m with
  | nil => rw [overlaid_nil]; rfl
  | cons b data ih =>
    rw [List.length_cons] at h
    have hk : k < 16 := by omega
    simp only [setRegisters, bind_apply, setRegister, hk, dite_true]
    rw [ih (by omega), overlaid_set]

def slot (k : Nat) : Action UInt16 := fun m => found m.stack.slots[k]? m

def setSlot (k : Nat) (a : UInt16) : Action Unit := fun m =>
  if h : k < 16 then .done () { m with stack := ⟨m.stack.slots.set k a, m.stack.depth⟩ }
  else .trapped

/-- The pointer counts slots, of which there are sixteen. -/
def setDepth (n : Nat) : Action Unit := fun m =>
  if h : n < 17 then .done () { m with stack := ⟨m.stack.slots, ⟨n, h⟩⟩ } else .trapped

def byte (a : Nat) : Action UInt8 := fun m => found m.memory.bytes[a]? m

def setByte (a : Nat) (b : UInt8) : Action Unit := fun m =>
  if h : a < 4096 then
    .done () { m with memory := { m.memory with bytes := m.memory.bytes.set a b } }
  else .trapped

def bytes (start : Nat) : Nat → Action (List UInt8)
  | 0 => pure []
  | n + 1 => do
    let b ← byte start
    let rest ← bytes (start + 1) n
    pure (b :: rest)

def setBytes (start : Nat) : List UInt8 → Action Unit
  | [] => pure ()
  | b :: data => do
    setByte start b
    setBytes (start + 1) data

lemma bytes_of_le {start n : Nat} (h : start + n ≤ 4096) :
    bytes start n m = .done ((List.range' start n).map m.memory.byte) m := by
  induction n generalizing start with
  | zero => rfl
  | succ n ih =>
    have hs : start < 4096 := by omega
    simp only [bytes, bind_apply, byte, Vector.getElem?_eq_getElem hs, found_some, pure_apply]
    rw [ih (by omega), List.range'_succ, List.map_cons, Memory.byte_of_lt m.memory hs]

lemma setIfInBounds_of_lt {n i : Nat} {xs : Vector α n} {a : α} (h : i < n) :
    xs.setIfInBounds i a = xs.set i a := by
  ext j hj
  simp [Vector.getElem_setIfInBounds, Vector.getElem_set]

lemma setBytes_of_le {start : Nat} {data : List UInt8} (h : start + data.length ≤ 4096) :
    setBytes start data m = .done () { m with
      memory := { m.memory with bytes := Memory.put m.memory.bytes start data } } := by
  induction data generalizing start m with
  | nil => rfl
  | cons b data ih =>
    rw [List.length_cons] at h
    have hs : start < 4096 := by omega
    simp only [setBytes, bind_apply, setByte, hs, dite_true]
    rw [ih (by omega), Memory.put, setIfInBounds_of_lt hs]

/-- A range that leaves memory is refused before it is looked at. -/
def checkRange (address : UInt16) (length : Nat) : Action Unit := do
  let stop ← addSize address.toNat length
  if 4096 < stop then fail (.outOfBounds (max address.toNat 4096)) else pure ()

def slice (address : UInt16) (length : Nat) : Action (List UInt8) := do
  checkRange address length
  bytes address.toNat length

def overwrite (address : UInt16) (data : List UInt8) : Action Unit := do
  checkRange address data.length
  setBytes address.toNat data

lemma checkRange_of_le {address : UInt16} {length : Nat} (h : address.toNat + length ≤ 4096) :
    checkRange address length = pure () := by
  have h' : address.toNat + length < 2 ^ 64 := by omega
  simp only [checkRange, addSize_of_lt h']
  exact if_neg (Nat.not_lt.2 h)

lemma checkRange_of_gt {address : UInt16} {length : Nat} (h : 4096 < address.toNat + length)
    (hl : length < 2 ^ 53) :
    checkRange address length = fail (.outOfBounds (max address.toNat 4096)) := by
  have ha := address.toNat_lt
  have h' : address.toNat + length < 2 ^ 64 := by omega
  simp only [checkRange, addSize_of_lt h']
  exact if_pos h

/-- Reading a range in place is reading it from memory. -/
theorem slice_apply (m : Machine) (address : UInt16) {length : Nat} (hl : length < 2 ^ 53) :
    slice address length m =
      match m.memory.read address length with
      | .ok data => .done data m
      | .error f => .failed f m := by
  by_cases h : address.toNat + length ≤ 4096
  · simp only [slice, checkRange_of_le h, Memory.read_of_le m.memory h]
    exact bytes_of_le h
  · simp only [slice, checkRange_of_gt (Nat.lt_of_not_le h) hl,
      Memory.read_of_gt m.memory (Nat.lt_of_not_le h)]
    rfl

/-- Writing byte by byte is writing the whole range, and a refused range is not written to. -/
theorem overwrite_apply (m : Machine) (address : UInt16) {data : List UInt8}
    (hl : data.length < 2 ^ 53) :
    overwrite address data m =
      match m.memory.write address data with
      | .ok memory => .done () { m with memory := memory }
      | .error f => .failed f m := by
  by_cases h : address.toNat + data.length ≤ 4096
  · simp only [overwrite, checkRange_of_le h, Memory.write_of_le m.memory h]
    exact setBytes_of_le h
  · simp only [overwrite, checkRange_of_gt (Nat.lt_of_not_le h) hl,
      Memory.write_of_gt m.memory (Nat.lt_of_not_le h)]
    rfl

end Action

end ChipEight
