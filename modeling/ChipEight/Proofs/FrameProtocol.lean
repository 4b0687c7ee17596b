import ChipEight.Proofs.Tracing
import ChipEight.Script

/-! Which calls a frame makes of its host and what it leaves behind where it stops. A frame is run at a
host that keeps its calls, and the result, the calls and the console afterwards make up its report.
`FrameCase` lists the reports there are; `FrameProtocol` says what they have in common. -/
namespace ChipEight

lemma Timers.isSounding_eq (t : Timers) : t.isSounding = decide (0 < t.sound) := by
  have hpos : 0 < t.sound ↔ t.sound ≠ 0 := by
    rw [UInt8.lt_iff_toNat_lt, ← UInt8.toNat_inj.ne]
    exact Nat.pos_iff_ne_zero
  rw [Bool.eq_iff_iff]
  simp [isSounding, hpos]

namespace Machine

/-- Waiting for a key while none is down. -/
def Blocked (m : Machine) : Prop :=
  (∃ x, m.status = .awaitingKey x) ∧ ∀ k : Key, m.keypad.isPressed k.val = false

lemma isAwaitingKey_iff_blocked (m : Machine) : m.isAwaitingKey = true ↔ m.Blocked := by
  unfold isAwaitingKey Blocked
  rw [← Keypad.firstPressed_eq_none_iff]
  cases m.status <;> simp

instance (m : Machine) : Decidable m.Blocked := decidable_of_iff _ m.isAwaitingKey_iff_blocked

/-- Each timer is one lower, but not below zero, and nothing else has changed. -/
structure TicksTo (m m' : Machine) : Prop where
  delay : m'.timers.delay.toNat = m.timers.delay.toNat - 1
  sound : m'.timers.sound.toNat = m.timers.sound.toNat - 1
  rest : m' = { m with timers := m'.timers }

lemma ticksTo_tick (m : Machine) : m.TicksTo m.tick :=
  ⟨toNat_countDown m.timers.delay, toNat_countDown m.timers.sound, rfl⟩

end Machine

namespace Console

variable {σ : Type}

structure FrameReport (σ : Type) where
  result : Except Trouble Unit
  /-- The calls made, each with the text it failed with. -/
  calls : List (Call × Option String)
  console : Console σ

def report (h : Host σ) (s : FrameSettings) (c : Console σ) : FrameReport σ :=
  match frame h.traced s c.traced with
  | .ok () d => ⟨.ok (), d.host.calls.toList, d.erased⟩
  | .error t d => ⟨.error t, d.host.calls.toList, d.erased⟩

def FrameReport.outcome (r : FrameReport σ) : EStateM.Result Trouble (Console σ) Unit :=
  match r.result with
  | .ok () => .ok () r.console
  | .error t => .error t r.console

theorem frame_eq_outcome_report (h : Host σ) (s : FrameSettings) (c : Console σ) :
    frame h s c = (report h s c).outcome := by
  have herased := Erases.frame h s c.traced
  rw [erased_traced] at herased
  rw [herased]
  unfold report
  cases frame h.traced s c.traced <;> rfl

/-- The calls of a frame that comes as far as its steps: the buzzer is to be on if there is some of the
sound timer left behind the tick. -/
def callsBeforeSteps (h : Host σ) (c : Console σ) : List Call :=
  [.peek, .flush] ++ Host.switching (decide (0 < c.machine.timers.sound.toNat - 1))
    (h.isBeeping (h.flush (h.peek c.host).state).state)

/-- How many steps a frame is to take once the keys are updated. -/
def stepsDue (s : FrameSettings) (m : Machine) : Nat := if m.Blocked then 1 else s.cyclesPerFrame

lemma cyclesFor_tick (s : FrameSettings) (m : Machine) : cyclesFor s m.tick = stepsDue s m := by
  have htick : m.tick.isAwaitingKey = m.isAwaitingKey := rfl
  simp only [cyclesFor, stepsDue, htick, Machine.isAwaitingKey_iff_blocked]

/-- The reports there are. -/
inductive FrameCase (h : Host σ) (s : FrameSettings) (c : Console σ) (r : FrameReport σ) : Prop
  | unread {message : String} (result : r.result = .error (.host message))
      (calls : r.calls = [(.peek, some message)])
      (holds : r.console.holds = c.holds) (machine : r.console.machine = c.machine)
  | unflushed {message : String} (result : r.result = .error (.host message))
      (calls : r.calls = [(.peek, none), (.flush, some message)])
      (machine : r.console.machine = c.machine)
  | unfollowed {message : String} {call : Call} {d : Console σ}
      (result : r.result = .error (.host message))
      (due : callsBeforeSteps h c = [.peek, .flush, call]) (switch : call = .beep ∨ call = .stop)
      (calls : r.calls = [(.peek, none), (.flush, none), (call, some message)])
      (keys : updateKeys h s c = .ok () d)
      (holds : r.console.holds = d.holds) (machine : r.console.machine = d.machine.tick)
  | faulted {f : Failure} {d : Console σ} (result : r.result = .error (.machine f))
      (calls : r.calls = (callsBeforeSteps h c).map (·, none))
      (keys : updateKeys h s c = .ok () d)
      (steps : d.machine.tick.StepsTo (stepsDue s d.machine) (.error f) r.console.machine)
  | ended (draw : Except String Unit) {d : Console σ} (result : r.result = draw.mapError .host)
      (calls : r.calls = (callsBeforeSteps h c).map (·, none) ++
        [(.draw, match draw with | .ok () => none | .error message => some message)])
      (keys : updateKeys h s c = .ok () d)
      (steps : d.machine.tick.StepsTo (stepsDue s d.machine) (.ok ()) r.console.machine)

variable {h : Host σ} {s : FrameSettings} {c : Console σ} {keys : List UInt8}

lemma calls_peeked (peek : (h.traced.peek c.traced.host).result = .ok keys) :
    (h.traced.peek c.traced.host).state.calls.toList = [(.peek, none)] :=
  Host.calls_of_ok peek

lemma calls_unflushed {message : String} (peek : (h.traced.peek c.traced.host).result = .ok keys)
    (flush : (h.traced.flush (h.traced.peek c.traced.host).state).result = .error message) :
    ((c.traced.read h.traced s keys).called h.traced.flush).host.calls.toList =
      [(.peek, none), (.flush, some message)] := by
  have hflush := Host.calls_of_error flush
  rw [calls_peeked peek, ← host_read c.traced h.traced s keys] at hflush
  exact hflush

lemma calls_ticked (peek : (h.traced.peek c.traced.host).result = .ok keys)
    (flush : (h.traced.flush (h.traced.peek c.traced.host).state).result = .ok ()) :
    (c.traced.ticked h.traced s keys).host.calls.toList = [(.peek, none), (.flush, none)] := by
  have hflush := Host.calls_of_ok flush
  have hhost := congrArg (fun t : Traced σ => t.calls.toList)
    (host_updated c.traced h.traced s keys)
  rw [calls_peeked peek] at hflush
  exact hhost.trans hflush

lemma updateKeys_updated (peek : (h.traced.peek c.traced.host).result = .ok keys)
    (flush : (h.traced.flush (h.traced.peek c.traced.host).state).result = .ok ()) :
    updateKeys h s c = .ok () (c.traced.updated h.traced s keys).erased := by
  have hkeys := updateKeys_apply h.traced s c.traced
  simp only [peek, flush] at hkeys
  have herased := Erases.updateKeys h s c.traced
  rw [hkeys] at herased
  exact herased

lemma callsBeforeSteps_eq (h : Host σ) (s : FrameSettings) (c : Console σ) (keys : List UInt8) :
    callsBeforeSteps h c = [.peek, .flush] ++
      Host.switching (c.traced.ticked h.traced s keys).machine.isSounding
        (h.isBeeping (c.traced.ticked h.traced s keys).host.state) := by
  have hhost : (c.traced.ticked h.traced s keys).host.state =
      (h.flush (h.peek c.host).state).state :=
    congrArg Traced.state (host_updated c.traced h.traced s keys)
  have hmachine : (c.traced.ticked h.traced s keys).machine.isSounding =
      decide (0 < c.machine.timers.sound.toNat - 1) := by
    change (c.traced.updated h.traced s keys).machine.tick.timers.isSounding = _
    rw [machine_updated, Timers.isSounding_eq, decide_eq_decide, UInt8.lt_iff_toNat_lt,
      (Machine.ticksTo_tick _).sound]
    rfl
  rw [callsBeforeSteps, hhost, hmachine]

variable {result : Except Failure Unit} {d : Console (Traced σ)}

lemma calls_of_pastSteps (past : PastSteps h.traced s c.traced keys result d) :
    d.host.calls.toList = (callsBeforeSteps h c).map (·, none) := by
  have hcalls := Host.calls_follow_ok past.follow
  rw [calls_ticked past.peek past.flush] at hcalls
  rw [callsBeforeSteps_eq h s c keys, List.map_append, past.host]
  exact hcalls

lemma stepsTo_of_pastSteps (past : PastSteps h.traced s c.traced keys result d) :
    (c.traced.updated h.traced s keys).erased.machine.tick.StepsTo
      (stepsDue s (c.traced.updated h.traced s keys).erased.machine) result d.machine := by
  have hsteps := past.steps
  rw [ticked, cyclesFor_tick] at hsteps
  exact hsteps

theorem frameCase (h : Host σ) (s : FrameSettings) (c : Console σ) :
    FrameCase h s c (report h s c) := by
  have hcourse := frame_course h.traced s c.traced
  unfold report
  generalize frame h.traced s c.traced = result at hcourse
  cases hcourse with
  | unread peek => exact .unread rfl (Host.calls_of_error peek) rfl rfl
  | unflushed peek flush =>
    exact .unflushed rfl (calls_unflushed peek flush) (machine_read c.traced h.traced s _)
  | @unfollowed keys message peek flush follow =>
    obtain ⟨call, hswitch, hcalls⟩ := Host.calls_follow_error follow
    have hdue := callsBeforeSteps_eq h s c keys
    rw [hswitch] at hdue
    rw [calls_ticked peek flush] at hcalls
    have hcall : call = .beep ∨ call = .stop := by
      apply Host.of_mem_switching
      rw [hswitch]
      exact List.mem_singleton_self call
    exact .unfollowed rfl hdue hcall hcalls (updateKeys_updated peek flush) rfl rfl
  | faulted past =>
    exact .faulted rfl (calls_of_pastSteps past) (updateKeys_updated past.peek past.flush)
      (stepsTo_of_pastSteps past)
  | @undrawn keys message d past draw =>
    have hcalls := Host.calls_of_error draw
    rw [calls_of_pastSteps past] at hcalls
    have hsteps := stepsTo_of_pastSteps past
    exact .ended (.error message) rfl hcalls (updateKeys_updated past.peek past.flush) hsteps
  | drawn past draw =>
    have hcalls := Host.calls_of_ok draw
    rw [calls_of_pastSteps past] at hcalls
    have hsteps := stepsTo_of_pastSteps past
    exact .ended (.ok ()) rfl hcalls (updateKeys_updated past.peek past.flush) hsteps

namespace FrameCase

variable {r : FrameReport σ}

lemma draw_not_mem_callsBeforeSteps (h : Host σ) (c : Console σ) :
    Call.draw ∉ callsBeforeSteps h c := by
  unfold callsBeforeSteps
  intro hmem
  rcases List.mem_append.1 hmem with hmem | hmem
  · simp at hmem
  · rcases Host.of_mem_switching hmem with heq | heq <;> cases heq

lemma map_fst_map_none (calls : List Call) :
    (calls.map fun call => (call, (none : Option String))).map (·.1) = calls := by
  rw [List.map_map]
  exact List.map_id calls

lemma ok_iff (hr : FrameCase h s c r) :
    r.result = .ok () ↔ r.calls.filter (·.1 = .draw) = [(.draw, none)] := by
  have hbefore : ((callsBeforeSteps h c).map fun call => (call, (none : Option String))).filter
      (·.1 = .draw) = [] := by
    rw [List.filter_eq_nil_iff]
    rintro ⟨call, _⟩ hmem hdraw
    obtain ⟨call', hmem', heq⟩ := List.mem_map.1 hmem
    cases heq
    exact draw_not_mem_callsBeforeSteps h c (of_decide_eq_true hdraw ▸ hmem')
  cases hr with
  | unread result calls | unflushed result calls => simp [result, calls]
  | unfollowed result _ switch calls =>
    rcases switch with rfl | rfl <;> simp [result, calls]
  | faulted result calls => simp [result, calls, hbefore]
  | ended draw result calls =>
    rw [result, calls, List.filter_append, hbefore]
    cases draw <;> simp [Except.mapError]

lemma steps (hr : FrameCase h s c r)
    (hdraw : ∀ call message, (call, some message) ∈ r.calls → call = .draw) :
    ∃ d result, updateKeys h s c = .ok () d ∧ d.machine.TicksTo d.machine.tick ∧
      d.machine.tick.StepsTo (stepsDue s d.machine) result r.console.machine ∧
      match result with
      | .ok () => r.calls.map (·.1) = callsBeforeSteps h c ++ [.draw]
      | .error f => r.result = .error (.machine f) ∧ r.calls.map (·.1) = callsBeforeSteps h c := by
  cases hr with
  | unread _ calls => cases hdraw .peek _ (by rw [calls]; exact List.mem_singleton_self _)
  | unflushed _ calls => cases hdraw .flush _ (by rw [calls]; exact List.mem_of_getLast? rfl)
  | @unfollowed message call _ _ _ switch calls =>
    have hcall := hdraw call message (by rw [calls]; exact List.mem_of_getLast? rfl)
    rcases switch with rfl | rfl <;> cases hcall
  | @faulted f d result calls keys steps =>
    refine ⟨d, .error f, keys, d.machine.ticksTo_tick, steps, result, ?_⟩
    rw [calls, map_fst_map_none]
  | @ended _ d _ calls keys steps =>
    refine ⟨d, .ok (), keys, d.machine.ticksTo_tick, steps, ?_⟩
    rw [calls, List.map_append, map_fst_map_none]
    rfl

end FrameCase

lemma machine_of_updateKeys {d : Console σ} (hd : updateKeys h s c = .ok () d) :
    d.machine = { c.machine with keypad := d.machine.keypad } := by
  obtain ⟨keys, rfl⟩ := exists_keys_of_updateKeys hd
  rw [machine_updated]

/-- The first frame with a sound timer at two whose buzzer cannot be switched on. -/
example : (report Script.host {}
    (start { Machine.start ⟨fun _ => 0, 0⟩ {} with timers := ⟨0, 2⟩ }
      { failures := [(.beep, "no speaker")] })).calls =
    [(.peek, none), (.flush, none), (.beep, some "no speaker")] := by
  decide +kernel

end Console

end ChipEight
