import ChipEight.Failure

/-! The pad of sixteen keys, each up or down. -/
namespace ChipEight

abbrev Key := Fin 16

structure Keypad where
  keys : Vector Bool 16
  deriving DecidableEq

namespace Keypad

def released : Keypad := ⟨Vector.replicate 16 false⟩

/-- No key outside the pad is ever down. -/
def isPressed (p : Keypad) (index : Nat) : Bool := p.keys[index]?.getD false

def setKey (p : Keypad) (k : Key) (pressed : Bool) : Keypad := ⟨p.keys.set k pressed⟩

def set (p : Keypad) (index : Nat) (pressed : Bool) : Except Failure Keypad :=
  if h : index < 16 then .ok (p.setKey ⟨index, h⟩ pressed) else .error (.invalidKey index)

/-- The keys that are down, in ascending order. -/
def pressed (p : Keypad) : List Key := (List.finRange 16).filter fun k => p.isPressed k.val

def firstPressed (p : Keypad) : Option Key := (List.finRange 16).find? fun k => p.isPressed k.val

theorem isPressed_released (index : Nat) : released.isPressed index = false := by
  by_cases h : index < 16 <;> simp [released, isPressed, h]

theorem isPressed_setKey (p : Keypad) (k : Key) (b : Bool) (index : Nat) :
    (p.setKey k b).isPressed index = if index = k.val then b else p.isPressed index := by
  by_cases h : index < 16
  · by_cases hk : index = k.val
    · simp [setKey, isPressed, hk]
    · simp [setKey, isPressed, h, hk, Ne.symm hk]
  · have : index ≠ k.val := by omega
    simp [setKey, isPressed, h, this]

theorem firstPressed_eq_none_iff (p : Keypad) :
    p.firstPressed = none ↔ ∀ k : Key, p.isPressed k.val = false := by
  simp [firstPressed]

theorem isPressed_of_firstPressed {p : Keypad} {k : Key} (h : p.firstPressed = some k) :
    p.isPressed k.val = true := by
  simpa using List.find?_some h

end Keypad

end ChipEight
