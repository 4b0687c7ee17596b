/-! The delay timer and the sound timer. Both count down sixty times a second and stop at zero. -/
namespace ChipEight

def countDown (t : UInt8) : UInt8 := if t = 0 then 0 else t - 1

structure Timers where
  delay : UInt8 := 0
  sound : UInt8 := 0
  deriving DecidableEq

namespace Timers

def tick (t : Timers) : Timers := ⟨countDown t.delay, countDown t.sound⟩

def isSounding (t : Timers) : Bool := t.sound != 0

/-- The timers after `n` ticks. -/
def lapse (t : Timers) (n : Nat) : Timers :=
  ⟨UInt8.ofNat (t.delay.toNat - n), UInt8.ofNat (t.sound.toNat - n)⟩

end Timers

theorem toNat_countDown (t : UInt8) : (countDown t).toNat = t.toNat - 1 := by
  unfold countDown
  split
  · simp [*]
  · next h =>
    have : 1 ≤ t.toNat := by
      have : t.toNat ≠ 0 := fun h' => h (UInt8.toNat_inj.1 h')
      omega
    rw [UInt8.toNat_sub_of_le]
    · rfl
    · rw [UInt8.le_iff_toNat_le]; exact this

namespace Timers

theorem toNat_delay_lapse (t : Timers) (n : Nat) :
    (t.lapse n).delay.toNat = t.delay.toNat - n := by
  have := t.delay.toNat_lt
  rw [lapse, UInt8.toNat_ofNat']
  omega

theorem toNat_sound_lapse (t : Timers) (n : Nat) :
    (t.lapse n).sound.toNat = t.sound.toNat - n := by
  have := t.sound.toNat_lt
  rw [lapse, UInt8.toNat_ofNat']
  omega

theorem lapse_zero (t : Timers) : t.lapse 0 = t := by
  simp [lapse]

end Timers

end ChipEight
