/-! The call stack: sixteen slots outside memory and how many of them are in use. -/
namespace ChipEight

structure CallStack where
  slots : Vector UInt16 16
  depth : Fin 17
  deriving DecidableEq

namespace CallStack

def empty : CallStack := ⟨Vector.replicate 16 0, 0⟩

def push? (s : CallStack) (address : UInt16) : Option CallStack :=
  if h : s.depth.val < 16 then
    some ⟨s.slots.set s.depth.val address, ⟨s.depth.val + 1, by omega⟩⟩
  else none

/-- The slot that is given up keeps its contents. -/
def pop? (s : CallStack) : Option (UInt16 × CallStack) :=
  if h : 0 < s.depth.val then
    some (s.slots[s.depth.val - 1], ⟨s.slots, ⟨s.depth.val - 1, by omega⟩⟩)
  else none

theorem push?_eq_none_iff (s : CallStack) (a : UInt16) :
    s.push? a = none ↔ s.depth.val = 16 := by
  unfold push?; split <;> simp <;> omega

theorem pop?_eq_none_iff (s : CallStack) : s.pop? = none ↔ s.depth.val = 0 := by
  unfold pop?; split <;> simp <;> omega

theorem pop?_of_push? {s t : CallStack} {a : UInt16} (h : s.push? a = some t) :
    t.pop? = some (a, ⟨t.slots, s.depth⟩) := by
  unfold push? at h
  split at h
  · cases h; simp [pop?]
  · cases h

end CallStack

end ChipEight
