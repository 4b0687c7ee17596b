import ChipEight.Proofs.Devices
import ChipEight.Proofs.LoopProtocol

/-! The buzzer in a frame. A frame is cut in two behind the call that has the buzzer follow the sound
timer: in front of the cut are the keys and the tick, and behind it the steps and the drawing. What the
timer is at the cut is what the buzzer says there and for the rest of the frame. A timer that no step
sets is one less at each cut, so it tells for how many frames the buzzer still sounds. -/
namespace ChipEight

variable {σ : Type}

/-- Nothing but its own calls switches the buzzer. -/
structure Host.BuzzerApart (h : Host σ) : Prop where
  peek : ∀ s, h.isBeeping (h.peek s).state = h.isBeeping s
  flush : ∀ s, h.isBeeping (h.flush s).state = h.isBeeping s
  draw : ∀ screen s, h.isBeeping (h.draw screen s).state = h.isBeeping s

lemma Host.BuzzerObeys.isBeeping_follow {h : Host σ} (hobeys : h.BuzzerObeys) {sounding : Bool}
    {s : σ} (hr : (h.follow sounding s).result = .ok ()) :
    h.isBeeping (h.follow sounding s).state = sounding := by
  cases hb : h.isBeeping s with
  | true =>
    cases sounding with
    | true => rw [h.follow_of_isBeeping_eq hb, hb]
    | false =>
      rw [h.follow_false hb] at hr ⊢
      exact hobeys.stop_ok s hr
  | false =>
    cases sounding with
    | true =>
      rw [h.follow_true hb] at hr ⊢
      exact hobeys.beep_ok s hr
    | false => rw [h.follow_of_isBeeping_eq hb, hb]

lemma Host.followCalls_of_isBeeping_eq (h : Host σ) {sounding : Bool} {s : σ}
    (hs : h.isBeeping s = sounding) : h.followCalls sounding s = [] := by
  rw [followCalls, hs]
  cases sounding <;> rfl

lemma Machine.sound_afterSteps {m : Machine} {n : Nat}
    (h : ∀ k < n, ∀ x, (m.afterSteps k).next? ≠ some (.setSound x)) :
    (m.afterSteps n).timers.sound = m.timers.sound :=
  afterSteps_keeps (fun m => m.timers.sound) fun k hk => sound_step (h k hk)

namespace Console

def toFollow (h : Host σ) (s : FrameSettings) : Action σ Unit := do
  updateKeys h s
  modify fun c => { c with machine := c.machine.tick }
  ask (h.follow (← get).machine.isSounding)

def afterFollow (h : Host σ) (s : FrameSettings) : Action σ Unit := do
  runCycles (cyclesFor s (← get).machine)
  ask (h.draw (← get).machine.screen)

theorem frame_eq_toFollow_bind (h : Host σ) (s : FrameSettings) :
    frame h s = toFollow h s >>= fun _ => afterFollow h s := by
  simp only [frame, frameWith, toFollow, afterFollow, bind_assoc]

variable {h : Host σ} {s : FrameSettings} {c d : Console σ}

lemma frame_of_toFollow (hd : toFollow h s c = .ok () d) : frame h s c = afterFollow h s d := by
  rw [frame_eq_toFollow_bind, bind_of_ok hd]

lemma exists_keys_of_toFollow (hd : toFollow h s c = .ok () d) : ∃ keys,
    (h.follow (c.ticked h s keys).machine.isSounding (c.ticked h s keys).host).result = .ok () ∧
      d = c.followed h s keys := by
  unfold toFollow at hd
  cases hk : updateKeys h s c with
  | error t e =>
    rw [bind_of_error hk] at hd
    cases hd
  | ok u e =>
    obtain ⟨keys, rfl⟩ := exists_keys_of_updateKeys hk
    rw [bind_of_ok hk, modify_bind, get_bind] at hd
    change ask (h.follow (c.ticked h s keys).machine.isSounding) (c.ticked h s keys) = _ at hd
    refine ⟨keys, ?_⟩
    cases hb : (h.follow (c.ticked h s keys).machine.isSounding
      (c.ticked h s keys).host).result with
    | error message =>
      rw [ask_of_error hb] at hd
      cases hd
    | ok u =>
      rw [ask_of_ok hb] at hd
      cases hd
      exact ⟨rfl, rfl⟩

lemma timers_ticked (c : Console σ) (h : Host σ) (s : FrameSettings) (keys : List UInt8) :
    (c.ticked h s keys).machine.timers = c.machine.timers.tick := by
  change (c.updated h s keys).machine.tick.timers = _
  rw [machine_updated]
  rfl

lemma timers_toFollow (hd : toFollow h s c = .ok () d) :
    d.machine.timers = c.machine.timers.tick := by
  obtain ⟨keys, -, rfl⟩ := exists_keys_of_toFollow hd
  exact timers_ticked c h s keys

theorem isBeeping_toFollow (hobeys : h.BuzzerObeys) (hd : toFollow h s c = .ok () d) :
    h.isBeeping d.host = decide (0 < d.machine.timers.sound) := by
  obtain ⟨keys, hfollow, rfl⟩ := exists_keys_of_toFollow hd
  calc h.isBeeping (c.followed h s keys).host = (c.ticked h s keys).machine.isSounding :=
        hobeys.isBeeping_follow hfollow
    _ = decide (0 < (c.ticked h s keys).machine.timers.sound) := Timers.isSounding_eq _

/-- What comes from the cut on: a fatal failure, or all the steps and the drawing. -/
inductive Rest (h : Host σ) (s : FrameSettings) (d : Console σ) :
    EStateM.Result Trouble (Console σ) Unit → Prop
  | faulted {f : Failure} {e : Console σ} (host : e.host = d.host) :
      Rest h s d (.error (.machine f) e)
  | undrawn {message : String} {e : Console σ} (host : e.host = d.host) :
      Rest h s d (.error (.host message) (e.called (h.draw e.machine.screen)))
  | drawn {e : Console σ} (host : e.host = d.host)
      (steps : e.machine = d.machine.afterSteps (cyclesFor s d.machine)) :
      Rest h s d (.ok () (e.called (h.draw e.machine.screen)))

theorem afterFollow_rest (h : Host σ) (s : FrameSettings) (d : Console σ) :
    Rest h s d (afterFollow h s d) := by
  unfold afterFollow
  rw [get_bind]
  obtain ⟨e, -, hhost, ⟨hrun, hsteps⟩ | ⟨f, hrun, -⟩⟩ := runCycles_spec (cyclesFor s d.machine) d
  · rw [bind_of_ok hrun, get_bind]
    cases hd : (h.draw e.machine.screen e.host).result with
    | error message =>
      rw [ask_of_error hd]
      exact .undrawn hhost
    | ok u =>
      rw [ask_of_ok hd]
      generalize hm : e.machine = m at hsteps
      cases hsteps with
      | all _ => exact hm ▸ .drawn hhost hm
  · rw [bind_of_error hrun]
    exact .faulted hhost

/-- The drawing does not switch the buzzer. -/
theorem isBeeping_afterFrame (hapart : h.BuzzerApart) (hd : toFollow h s c = .ok () d) :
    h.isBeeping (afterFrame h s c).host = h.isBeeping d.host := by
  have hrest := afterFollow_rest h s d
  unfold afterFrame
  rw [frame_of_toFollow hd]
  generalize afterFollow h s d = result at hrest
  cases hrest with
  | faulted host => exact congrArg h.isBeeping host
  | @undrawn _ e host | @drawn e host _ =>
    calc h.isBeeping (h.draw e.machine.screen e.host).state = h.isBeeping e.host :=
          hapart.draw _ _
      _ = h.isBeeping d.host := congrArg h.isBeeping host

lemma machine_of_frame_ok {e : Console σ} (hd : toFollow h s c = .ok () d)
    (he : frame h s c = .ok () e) : e.machine = d.machine.afterSteps (cyclesFor s d.machine) := by
  have hrest := afterFollow_rest h s d
  rw [← frame_of_toFollow hd, he] at hrest
  cases hrest with
  | drawn _ steps => exact steps

lemma exists_toFollow_of_frame_ok {e : Console σ} (he : frame h s c = .ok () e) :
    ∃ d, toFollow h s c = .ok () d := by
  rw [frame_eq_toFollow_bind] at he
  cases hd : toFollow h s c with
  | ok u d => exact ⟨d, rfl⟩
  | error t d =>
    rw [bind_of_error hd] at he
    cases he

/-- No step of the frame is to set the sound timer. -/
def KeepsSound (h : Host σ) (s : FrameSettings) (c : Console σ) : Prop :=
  ∀ d, toFollow h s c = .ok () d → ∀ k < cyclesFor s d.machine, ∀ x,
    (d.machine.afterSteps k).next? ≠ some (.setSound x)

instance : Decidable (KeepsSound h s c) :=
  match hc : toFollow h s c with
  | .ok () d =>
    decidable_of_iff (∀ k < cyclesFor s d.machine, ∀ x,
        (d.machine.afterSteps k).next? ≠ some (.setSound x))
      ⟨fun hkeeps e he => by cases hc.symm.trans he; exact hkeeps, fun hkeeps => hkeeps d hc⟩
  | .error _ _ => isTrue fun _ hd => nomatch hc.symm.trans hd

lemma sound_of_keepsSound {e : Console σ} (hkeeps : KeepsSound h s c)
    (he : frame h s c = .ok () e) :
    e.machine.timers.sound.toNat = c.machine.timers.sound.toNat - 1 := by
  obtain ⟨d, hd⟩ := exists_toFollow_of_frame_ok he
  rw [machine_of_frame_ok hd he, Machine.sound_afterSteps (hkeeps d hd), timers_toFollow hd]
  exact toNat_countDown c.machine.timers.sound

variable {limit : Option Nat} {i left : Nat}

lemma sound_afterFrames (hleft : (afterFrames h s c i).machine.timers.sound.toNat = left) {k : Nat}
    (hgo : ∀ j < k, GoesOn h s limit c (i + j))
    (hkeeps : ∀ j < k, KeepsSound h s (afterFrames h s c (i + j))) :
    (afterFrames h s c (i + k)).machine.timers.sound.toNat = left - k := by
  induction k with
  | zero => exact hleft
  | succ k ih =>
    have hbefore := ih (fun j hj => hgo j (Nat.lt_succ_of_lt hj))
      fun j hj => hkeeps j (Nat.lt_succ_of_lt hj)
    have hlast :=
      sound_of_keepsSound (hkeeps k (Nat.lt_succ_self k)) (hgo k (Nat.lt_succ_self k)).frame
    rw [Nat.add_assoc] at hlast
    omega

/-- The timer is at `left` after some frames of a loop and no step of the next ones sets it: then the
buzzer is on in those but the last, in which it goes off. -/
theorem isBeeping_while_left (hobeys : h.BuzzerObeys)
    (hleft : (afterFrames h s c i).machine.timers.sound.toNat = left)
    (hgo : ∀ k < left, GoesOn h s limit c (i + k))
    (hkeeps : ∀ k < left, KeepsSound h s (afterFrames h s c (i + k))) {k : Nat} (hk : k < left) :
    ∃ d, toFollow h s (afterFrames h s c (i + k)) = .ok () d ∧
      h.isBeeping d.host = decide (k + 1 < left) := by
  obtain ⟨d, hd⟩ := exists_toFollow_of_frame_ok (hgo k hk).frame
  have hsound : (afterFrames h s c (i + k)).machine.timers.sound.toNat = left - k :=
    sound_afterFrames hleft (fun j hj => hgo j (hj.trans hk)) fun j hj => hkeeps j (hj.trans hk)
  have hticked : d.machine.timers.sound.toNat = left - k - 1 := by
    rw [timers_toFollow hd, ← hsound]
    exact toNat_countDown _
  refine ⟨d, hd, ?_⟩
  rw [isBeeping_toFollow hobeys hd, decide_eq_decide, UInt8.lt_iff_toNat_lt, hticked]
  have hzero : (0 : UInt8).toNat = 0 := rfl
  omega

end Console

end ChipEight
