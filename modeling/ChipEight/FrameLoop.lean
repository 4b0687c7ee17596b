import ChipEight.Console

/-! Frame after frame, until a limit is reached, the user asks to quit or a frame ends in trouble.
However it ends, the buzzer is switched off. -/
namespace ChipEight

namespace Console

variable {σ : Type}

/-- How a loop ends: the number of frames that went well, or the trouble. -/
abbrev Outcome (σ : Type) := EStateM.Result Trouble (Console σ) Nat

inductive Progress (σ : Type)
  | ended (outcome : Outcome σ)
  | going (frames : Nat) (console : Console σ)

/-- One round: the limit is looked at first, then the wish to quit, and then a frame is run. -/
def round (h : Host σ) (s : FrameSettings) (limit : Option Nat) (frames : Nat) (c : Console σ) :
    Progress σ :=
  if limit.any (· ≤ frames) then .ended (.ok frames c)
  else if h.quitRequested c.host then .ended (.ok frames { c with log := c.log.push (.quit frames) })
  else
    match frame h s c with
    | .ok () c => .going (frames + 1) c
    | .error trouble c => .ended (.error trouble c)

/-- At most `fuel` rounds; nothing if the loop would still go on. -/
def rounds (h : Host σ) (s : FrameSettings) (limit : Option Nat) :
    (fuel frames : Nat) → Console σ → Option (Outcome σ)
  | 0, _, _ => none
  | fuel + 1, frames, c =>
    match round h s limit frames c with
    | .ended outcome => some outcome
    | .going frames c => rounds h s limit fuel frames c

/-- If the buzzer cannot be switched off, that is the outcome. -/
def silence (h : Host σ) : Outcome σ → Outcome σ
  | .ok frames c =>
    match ask (h.follow false) c with
    | .ok () c => .ok frames c
    | .error trouble c => .error trouble c
  | .error first c =>
    match ask (h.follow false) c with
    | .ok () c => .error first c
    | .error trouble c => .error trouble c

/-- Frames are counted in 64 bits, and no loop is followed past that. -/
def longestLoop : Nat := UInt64.size

def loop (h : Host σ) (s : FrameSettings) (limit : Option Nat) (c : Console σ) :
    Option (Outcome σ) :=
  (rounds h s limit longestLoop 0 c).map (silence h)

/-- A round goes on only below the limit, by a frame that went well. -/
theorem round_eq_going_iff (h : Host σ) (s : FrameSettings) (limit : Option Nat) (frames next : Nat)
    (c d : Console σ) : round h s limit frames c = .going next d ↔
      limit.any (· ≤ frames) = false ∧ h.quitRequested c.host = false ∧
        frame h s c = .ok () d ∧ next = frames + 1 := by
  unfold round
  cases hl : limit.any (· ≤ frames)
  · cases hq : h.quitRequested c.host
    · cases hf : frame h s c <;> simp [eq_comm, and_comm]
    · simp
  · simp

/-- With a limit, a round for each frame left and one more are enough. -/
theorem rounds_isSome (h : Host σ) (s : FrameSettings) {limit fuel frames : Nat}
    (hl : frames ≤ limit) (hf : limit < frames + fuel) (c : Console σ) :
    (rounds h s (some limit) fuel frames c).isSome := by
  induction fuel generalizing frames c with
  | zero => omega
  | succ fuel ih =>
    unfold rounds
    cases hr : round h s (some limit) frames c with
    | ended outcome => rfl
    | going next d =>
      obtain ⟨hlt, -, -, rfl⟩ := (round_eq_going_iff h s _ _ _ _ _).1 hr
      simp only [Option.any_some, decide_eq_false_iff_not] at hlt
      exact ih (by omega) (by omega) d

theorem loop_isSome (h : Host σ) (s : FrameSettings) {limit : Nat} (hl : limit < longestLoop)
    (c : Console σ) : (loop h s (some limit) c).isSome := by
  simp [loop, rounds_isSome h s (Nat.zero_le limit) (by simpa using hl) c]

end Console

end ChipEight
