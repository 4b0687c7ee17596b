import ChipEight.Proofs.Buzzer
import ChipEight.Proofs.Throttling

/-! A fault ends the program for its host as well. A frame can fail fatally only if it is to take a step
each time, and a faulted machine is never blocked on a key, so every later frame comes to the same
failure in its first step, behind the tick and before the drawing. Frames and loops one after the other
thus leave all but the timers and the keys as the fault left it, and a loop gives up in its first frame. -/
namespace ChipEight

namespace Machine

variable {m m' m'' : Machine} {f : Failure} {n : Nat} {result : Except Failure Unit}

/-- Nothing has changed but the timers, which have run on, and the keys. -/
def StandsStill (m m' : Machine) : Prop :=
  m' = { m with timers := m'.timers, keypad := m'.keypad }

lemma StandsStill.refl (m : Machine) : m.StandsStill m := rfl

lemma StandsStill.trans (h : m.StandsStill m') (h' : m'.StandsStill m'') : m.StandsStill m'' := by
  rw [StandsStill] at h h' ⊢
  rw [h] at h'
  exact h'

lemma StandsStill.status (h : m.StandsStill m') : m'.status = m.status := by
  rw [StandsStill] at h
  rw [h]

lemma standsStill_tick (m : Machine) : m.StandsStill m.tick := rfl

lemma afterSteps_of_faulted (hs : m.status = .faulted f) (n : Nat) : m.afterSteps n = m := by
  induction n with
  | zero => rfl
  | succ n ih =>
    rw [afterSteps_succ, step_of_faulted hs]
    exact ih

lemma stepsTo_of_faulted (hs : m.status = .faulted f) (hf : f.isFatal = true) (hn : 0 < n)
    (h : m.StepsTo n result m') : result = .error f ∧ m' = m := by
  cases h with
  | all none =>
    have hfatal : m.FatalAt 0 f := ⟨congrArg Reply.result (step_of_faulted hs), hf⟩
    exact absurd hfatal (none 0 hn f)
  | @cut i g _ _ fatal =>
    obtain ⟨hresult, -⟩ := fatal
    rw [afterSteps_of_faulted hs, step_of_faulted hs] at hresult
    cases hresult
    exact ⟨rfl, afterSteps_of_faulted hs _⟩

lemma status_of_stepsTo (h : m.StepsTo n (.error f) m') :
    m'.status = .faulted f ∧ f.isFatal = true := by
  cases h with
  | @cut i _ _ _ fatal =>
    rw [afterSteps_snoc]
    exact ⟨status_step_of_fatal fatal.1 fatal.2, fatal.2⟩

/-- A machine that is blocked takes one step, and that one goes well. -/
lemma not_blocked_of_stepsTo (h : m.StepsTo n (.error f) m') (hn : m.isAwaitingKey = true → n = 1) :
    m.isAwaitingKey = false := by
  cases hb : m.isAwaitingKey with
  | false => rfl
  | true =>
    cases h with
    | @cut i _ lt _ fatal =>
      obtain rfl : i = 0 := by
        have := hn hb
        omega
      obtain ⟨hresult, -⟩ := fatal
      change m.step.result = _ at hresult
      rw [step_of_blocked hb] at hresult
      cases hresult

end Machine

namespace Host

variable {σ : Type} {sounding : Bool} {host : σ}

lemma follow_ok_of_followCalls (h : Host σ)
    (hnone : ∀ call ∈ h.followCalls sounding host, call.2 = none) :
    (h.follow sounding host).result = .ok () := by
  by_cases hb : h.isBeeping host = sounding
  · rw [follow_of_isBeeping_eq h hb]
  · have hswitching : ∃ call, switching sounding (h.isBeeping host) = [call] := by
      revert hb
      cases sounding <;> cases h.isBeeping host <;> simp [switching]
    obtain ⟨call, hcall⟩ := hswitching
    rw [followCalls, hcall] at hnone
    have hlast := hnone _ (List.mem_singleton_self _)
    cases hr : (h.follow sounding host).result with
    | ok u => rfl
    | error message =>
      rw [hr] at hlast
      cases hlast

lemma ne_draw_of_mem_followCalls (h : Host σ) {call : Call × Option String}
    (hmem : call ∈ h.followCalls sounding host) : call.1 ≠ .draw := by
  obtain ⟨call', hmem', rfl⟩ := List.mem_map.1 hmem
  rcases of_mem_switching hmem' with rfl | rfl <;> exact Call.noConfusion

/-- A buzzer that goes off when it is switched off with success is off once it has been told so. -/
lemma isBeeping_follow_false (h : Host σ)
    (hstop : h.StopSilences) (hok : (h.follow false host).result = .ok ()) :
    h.isBeeping (h.follow false host).state = false := by
  cases hb : h.isBeeping host with
  | false =>
    rw [follow_of_isBeeping_eq h hb]
    exact hb
  | true =>
    rw [follow_false h hb] at hok ⊢
    exact hstop host hok

end Host

namespace Console

variable {σ : Type} {h : Host σ} {s : FrameSettings} {c d k : Console σ} {f : Failure}

/-- The machine is faulted, and every frame is to take a step of it. -/
structure Stopped (s : FrameSettings) (f : Failure) (c : Console σ) : Prop where
  status : c.machine.status = .faulted f
  fatal : f.isFatal = true
  cycles : 0 < s.cyclesPerFrame

lemma Stopped.of_standsStill (hc : Stopped s f c) (h : c.machine.StandsStill d.machine) :
    Stopped s f d :=
  ⟨h.status.trans hc.status, hc.fatal, hc.cycles⟩

theorem stopped_of_frame (hfails : frame h s c = .error (.machine f) d) : Stopped s f d := by
  have hcourse := frame_course h s c
  rw [hfails] at hcourse
  cases hcourse with
  | @faulted keys _ _ past =>
    have hsteps := past.steps
    obtain ⟨hstatus, hfatal⟩ := Machine.status_of_stepsTo hsteps
    have hunblocked := Machine.not_blocked_of_stepsTo hsteps fun hb => if_pos hb
    refine ⟨hstatus, hfatal, ?_⟩
    -- some step was due, and a machine that is not blocked takes as many as the settings say
    rw [cyclesFor, hunblocked, if_neg Bool.false_ne_true] at hsteps
    generalize d.machine = m at hsteps
    cases hsteps with
    | cut lt _ _ => exact Nat.zero_lt_of_lt lt

lemma holds_afterFrame (hk : updateKeys h s c = .ok () k) : (afterFrame h s c).holds = k.holds := by
  have hleaves := leaves_afterFrame h s c
  have hkeys := updateKeys_apply h s c
  unfold reading at hleaves
  rw [hk] at hkeys
  cases hp : (h.peek c.host).result with
  | error message =>
    rw [hp] at hkeys
    cases hkeys
  | ok keys =>
    cases hf : (h.flush (h.peek c.host).state).result with
    | error message =>
      simp only [hp, hf] at hkeys
      cases hkeys
    | ok u =>
      simp only [hp, hf] at hkeys hleaves
      cases hkeys
      exact hleaves.1

lemma standsStill_of_updateKeys (hk : updateKeys h s c = .ok () k) :
    c.machine.StandsStill k.machine := by
  have hmachine := machine_of_updateKeys hk
  rw [Machine.StandsStill]
  generalize k.machine = m at hmachine ⊢
  rw [hmachine]

lemma stepsDue_of_stopped (hc : Stopped s f c) : stepsDue s c.machine = s.cyclesPerFrame := by
  apply if_neg
  rintro ⟨⟨x, hx⟩, -⟩
  exact nomatch hc.status.symm.trans hx

lemma stepsTo_of_stopped (hc : Stopped s f c) (hk : updateKeys h s c = .ok () k)
    {result : Except Failure Unit} {m : Machine}
    (hsteps : k.machine.tick.StepsTo (stepsDue s k.machine) result m) :
    result = .error f ∧ m = k.machine.tick := by
  have hstill := standsStill_of_updateKeys hk
  rw [stepsDue_of_stopped (hc.of_standsStill hstill)] at hsteps
  exact Machine.stepsTo_of_faulted (hstill.status.trans hc.status) hc.fatal hc.cycles hsteps

/-- What a frame of a stopped program comes to. -/
structure ComesToNothing (h : Host σ) (s : FrameSettings) (f : Failure) (c : Console σ)
    (r : FrameReport σ) : Prop where
  undrawn : ∀ call ∈ r.calls, call.1 ≠ .draw
  standsStill : c.machine.StandsStill r.console.machine
  fails : ∃ t, r.result = .error t
  /-- If no call fails, the failure is that of the machine, behind the keys and the tick. -/
  obeyed : (∀ call ∈ r.calls, call.2 = none) → r.result = .error (.machine f) ∧
    ∃ k, updateKeys h s c = .ok () k ∧ r.console.machine = k.machine.tick

lemma comesToNothing_of_refused {r : FrameReport σ} {t : Trouble} {call : Call} {message : String}
    (hresult : r.result = .error t) (hundrawn : ∀ call ∈ r.calls, call.1 ≠ .draw)
    (hstill : c.machine.StandsStill r.console.machine) (hcall : (call, some message) ∈ r.calls) :
    ComesToNothing h s f c r := by
  refine ⟨hundrawn, hstill, ⟨t, hresult⟩, ?_⟩
  intro hnone
  cases hnone _ hcall

theorem comesToNothing (hc : Stopped s f c) : ComesToNothing h s f c (report h s c) := by
  cases frameCase h s c with
  | unread result calls _ machine =>
    refine comesToNothing_of_refused result ?_ (machine ▸ .refl _)
      (by rw [calls]; exact List.mem_singleton_self _)
    simp [calls]
  | unflushed result calls machine =>
    refine comesToNothing_of_refused result ?_ (machine ▸ .refl _)
      (by rw [calls]; exact List.mem_of_getLast? rfl)
    simp [calls]
  | unfollowed result _ switch calls keys _ machine =>
    refine comesToNothing_of_refused result ?_ (machine ▸ (standsStill_of_updateKeys keys).trans
      (Machine.standsStill_tick _)) (by rw [calls]; exact List.mem_of_getLast? rfl)
    rcases switch with rfl | rfl <;> simp [calls]
  | faulted result calls keys steps =>
    obtain ⟨hfailure, hmachine⟩ := stepsTo_of_stopped hc keys steps
    cases hfailure
    refine ⟨?_, ?_, ⟨_, result⟩, fun _ => ⟨result, _, keys, hmachine⟩⟩
    · intro call hmem hdraw
      rw [calls] at hmem
      obtain ⟨call', hmem', rfl⟩ := List.mem_map.1 hmem
      exact FrameCase.draw_not_mem_callsBeforeSteps h c (hdraw ▸ hmem')
    · rw [hmachine]
      exact (standsStill_of_updateKeys keys).trans (Machine.standsStill_tick _)
  | ended _ _ _ keys steps =>
    obtain ⟨hfailure, -⟩ := stepsTo_of_stopped hc keys steps
    cases hfailure

section Loop
variable {limit : Option Nat} {r : LoopReport σ} {e : Outcome σ}

lemma frame_of_report_error {t : Trouble} (ht : (report h s c).result = .error t) :
    frame h s c = .error t (report h s c).console := by
  rw [frame_eq_outcome_report, FrameReport.outcome, ht]

/-- How a loop of a stopped program ends: before its first frame or in it. -/
inductive EndsAtOnce (h : Host σ) (s : FrameSettings) (limit : Option Nat) (c : Console σ) :
    Outcome σ → Prop
  | before {d : Console σ} (asked : limit = some 0 ∨ h.quitRequested c.host = true)
      (machine : d.machine = c.machine) : EndsAtOnce h s limit c (.ok 0 d)
  | inside {t : Trouble} (above : limit ≠ some 0) (unasked : h.quitRequested c.host = false)
      (result : (report h s c).result = .error t) :
      EndsAtOnce h s limit c (.error t (report h s c).console)

lemma Ending.endsAtOnce (he : Ending h s limit c 0 e) : EndsAtOnce h s limit c e := by
  cases he with
  | limited reached => exact .before (.inl reached) rfl
  | quit _ asked => exact .before (.inr asked) rfl
  | @troubled t d below unasked fails =>
    have hreport := frame_eq_outcome_report h s c
    change frame h s c = _ at fails
    rw [fails, FrameReport.outcome] at hreport
    cases ht : (report h s c).result with
    | ok u =>
      rw [ht] at hreport
      cases hreport
    | error t' =>
      rw [ht] at hreport
      cases hreport
      refine .inside ?_ unasked ht
      intro hlimit
      exact absurd (below 0 hlimit) (Nat.lt_irrefl 0)

lemma exists_ending_of_stopped (hc : Stopped s f c) (h : Host σ) (limit : Option Nat) :
    ∃ e, Ending h s limit c 0 e := by
  by_cases hlimit : limit = some 0
  · exact ⟨_, .limited hlimit⟩
  · have hbelow : ∀ m, limit = some m → 0 < m := by
      intro m hm
      exact Nat.pos_of_ne_zero fun hzero => hlimit (hzero ▸ hm)
    cases hquit : h.quitRequested c.host with
    | true => exact ⟨_, .quit hbelow hquit⟩
    | false =>
      obtain ⟨t, ht⟩ := (comesToNothing (h := h) hc).fails
      exact ⟨_, .troubled hbelow hquit (frame_of_report_error ht)⟩

lemma exists_loopReport_of_stopped (hc : Stopped s f c) (h : Host σ) (limit : Option Nat) :
    ∃ r, loopReport h s limit c = some r := by
  obtain ⟨e, he⟩ := exists_ending_of_stopped hc h limit
  have hloop : loop h s limit c = some (silence h e) :=
    loop_of_ending (fun k hk => absurd hk (Nat.not_lt_zero k)) he (by decide)
  rw [loop_eq_outcome_report] at hloop
  obtain ⟨r, hr, -⟩ := Option.map_eq_some_iff.1 hloop
  exact ⟨r, hr⟩

lemma closes_of_stopped (hc : Stopped s f c) (hr : loopReport h s limit c = some r) :
    ∃ e, EndsAtOnce h s limit c e ∧ Closes h e (callsOfFrames h s c (framesRun 0 e)) r := by
  obtain ⟨n, e, hgood, he, hcloses⟩ := closes_of_loopReport hr
  -- no frame goes well, so none comes before the ending
  obtain rfl : n = 0 := by
    apply Nat.eq_zero_of_not_pos
    intro hpos
    obtain ⟨-, -, hok⟩ := goesOn_iff_report.1 (hgood 0 hpos)
    obtain ⟨t, ht⟩ := (comesToNothing (h := h) hc).fails
    exact nomatch hok.symm.trans ht
  exact ⟨e, he.endsAtOnce, hcloses⟩

lemma callsOfFrames_one (h : Host σ) (s : FrameSettings) (c : Console σ) :
    callsOfFrames h s c 1 = (report h s c).calls := callsOfFrames_succ h s c 0

/-- What a loop of a stopped program comes to. -/
structure ComesBackAtOnce (h : Host σ) (limit : Option Nat) (f : Failure) (c : Console σ)
    (r : LoopReport σ) : Prop where
  undrawn : ∀ call ∈ r.calls, call.1 ≠ .draw
  standsStill : c.machine.StandsStill r.console.machine
  before : (∀ call ∈ r.calls, call.2 = none) →
    limit = some 0 ∨ h.quitRequested c.host = true →
      r.result = .ok 0 ∧ r.calls.countP (·.1 = .peek) = 0
  inside : (∀ call ∈ r.calls, call.2 = none) → limit ≠ some 0 → h.quitRequested c.host = false →
    r.result = .error (.machine f) ∧ r.calls.countP (·.1 = .peek) = 1
  silent : (∀ call ∈ r.calls, call.2 = none) → h.StopSilences →
    h.isBeeping r.console.host = false

theorem comesBackAtOnce (hc : Stopped s f c) (hr : loopReport h s limit c = some r) :
    ComesBackAtOnce h limit f c r := by
  obtain ⟨e, hends, hcloses⟩ := closes_of_stopped hc hr
  have hpeeks := hcloses.countP_peek
  have hframe := comesToNothing (h := h) hc
  have hfollow (hnone : ∀ call ∈ r.calls, call.2 = none) :
      (h.follow false e.console.host).result = .ok () := by
    apply h.follow_ok_of_followCalls
    intro call hmem
    exact hnone call (hcloses.calls ▸ List.mem_append_right _ hmem)
  have hresult (hnone : ∀ call ∈ r.calls, call.2 = none) : r.result = e.result := by
    rw [hcloses.result, hfollow hnone]
  have hmachine : r.console.machine = e.console.machine := by
    rw [hcloses.console]
    rfl
  have hsilent : (∀ call ∈ r.calls, call.2 = none) → h.StopSilences →
      h.isBeeping r.console.host = false := by
    intro hnone hstop
    rw [hcloses.console]
    exact h.isBeeping_follow_false hstop (hfollow hnone)
  have hundrawn (hbefore : ∀ call ∈ callsOfFrames h s c (framesRun 0 e), call.1 ≠ .draw) :
      ∀ call ∈ r.calls, call.1 ≠ .draw := by
    intro call hmem
    rw [hcloses.calls] at hmem
    exact (List.mem_append.1 hmem).elim (hbefore call) h.ne_draw_of_mem_followCalls
  cases hends with
  | before asked machine =>
    refine ⟨hundrawn nofun, ?_, ?_, ?_, hsilent⟩
    · rw [hmachine]
      exact machine ▸ .refl _
    · intro hnone _
      exact ⟨hresult hnone, hpeeks⟩
    · intro _ habove hunasked
      rcases asked with hlimit | hquit
      · exact absurd hlimit habove
      · exact nomatch hunasked.symm.trans hquit
  | @inside t above unasked result =>
    have hcalls : callsOfFrames h s c (framesRun 0 (.error t (report h s c).console)) =
        (report h s c).calls := callsOfFrames_one h s c
    refine ⟨hundrawn (hcalls ▸ hframe.undrawn), ?_, ?_, ?_, hsilent⟩
    · rw [hmachine]
      exact hframe.standsStill
    · intro _ hasked
      rcases hasked with hlimit | hquit
      · exact absurd hlimit above
      · exact nomatch unasked.symm.trans hquit
    · intro hnone _ _
      have hobeyed : ∀ call ∈ (report h s c).calls, call.2 = none := by
        intro call hmem
        apply hnone
        rw [hcloses.calls, hcalls]
        exact List.mem_append_left _ hmem
      obtain ⟨hfailure, -⟩ := hframe.obeyed hobeyed
      rw [result] at hfailure
      cases hfailure
      exact ⟨hresult hnone, hpeeks⟩

end Loop

theorem stopped_of_played (hc : Stopped s f c) {calls : List (Call × Option String)}
    {flags : List Bool} (hplayed : Played h s c calls flags d) :
    c.machine.StandsStill d.machine ∧ ∀ call ∈ calls, call.1 ≠ .draw := by
  induction hplayed with
  | nothing => exact ⟨.refl _, nofun⟩
  | @frame calls flags d _ ih =>
    obtain ⟨hstill, hundrawn⟩ := ih
    have hframe := comesToNothing (h := h) (hc.of_standsStill hstill)
    rw [afterFrame_eq_console_report]
    refine ⟨hstill.trans hframe.standsStill, ?_⟩
    intro call hmem
    exact (List.mem_append.1 hmem).elim (hundrawn call) (hframe.undrawn call)
  | loop _ _ ran ih =>
    obtain ⟨hstill, hundrawn⟩ := ih
    have hloop := comesBackAtOnce (hc.of_standsStill hstill) ran
    refine ⟨hstill.trans hloop.standsStill, ?_⟩
    intro call hmem
    exact (List.mem_append.1 hmem).elim (hundrawn call) (hloop.undrawn call)

/-- A frame has failed with `f` and left the console `d`; the last console is there when it is over, by
itself or with the loop that it was part of, and these are the calls made in between: a loop still has the
buzzer be silent. -/
inductive FaultLeaves (h : Host σ) (s : FrameSettings) (f : Failure) (d : Console σ) :
    List (Call × Option String) → Console σ → Prop
  | frame {c : Console σ} (fails : Console.frame h s c = .error (.machine f) d) :
      FaultLeaves h s f d [] d
  | loop {c : Console σ} {limit : Option Nat} {n : Nat} {r : LoopReport σ}
      (told : LoopProtocol h s limit c r n (.error (.machine f) d)) :
      FaultLeaves h s f d (h.followCalls false d.host) r.console

lemma FaultLeaves.stopped {since : List (Call × Option String)} {start : Console σ}
    (hleaves : FaultLeaves h s f d since start) :
    Stopped s f d ∧ start.machine = d.machine ∧ ∀ call ∈ since, call.1 ≠ .draw := by
  cases hleaves with
  | frame fails => exact ⟨stopped_of_frame fails, rfl, nofun⟩
  | @loop c limit n r told =>
    have hmachine : r.console.machine = d.machine := by
      rw [told.closes.console]
      rfl
    cases told.ending with
    | troubled _ _ fails =>
      exact ⟨stopped_of_frame fails, hmachine, fun _ => h.ne_draw_of_mem_followCalls⟩

/-- The program has ended in the fault `f` with the console `d`; since then `calls` have been made and
`e` is the console now. -/
structure ProgramOver (h : Host σ) (s : FrameSettings) (f : Failure) (d : Console σ)
    (calls : List (Call × Option String)) (e : Console σ) : Prop where
  undrawn : ∀ call ∈ calls, call.1 ≠ .draw
  standsStill : d.machine.StandsStill e.machine
  /-- A frame whose calls go well updates the keys, ticks the timers and fails as before. -/
  frame : (∀ call ∈ (report h s e).calls, call.2 = none) →
    ∃ k o, updateKeys h s e = .ok () k ∧ Console.frame h s e = .error (.machine f) o ∧
      k.machine.TicksTo o.machine ∧ o.machine = k.machine.tick ∧ o.holds = k.holds
  /-- A loop comes back, whatever its limit. -/
  loop : ∀ limit : Option UInt64, ∃ r, loopReport h s (limit.map UInt64.toNat) e = some r ∧
    Console.loop h s (limit.map UInt64.toNat) e = some r.outcome ∧
      ComesBackAtOnce h (limit.map UInt64.toNat) f e r

/-- Once a frame has failed fatally, whatever frames and loops come after it find the program over. -/
theorem fault_ends_program {start e : Console σ} {since calls : List (Call × Option String)}
    {flags : List Bool} (hleaves : FaultLeaves h s f d since start)
    (hplayed : Played h s start calls flags e) : ProgramOver h s f d (since ++ calls) e := by
  obtain ⟨hstopped, hmachine, hsince⟩ := hleaves.stopped
  have hstart : Stopped s f start := hstopped.of_standsStill (hmachine ▸ .refl _)
  obtain ⟨hstill, hundrawn⟩ := stopped_of_played hstart hplayed
  have he := hstart.of_standsStill hstill
  refine ⟨?_, hmachine ▸ hstill, ?_, ?_⟩
  · intro call hmem
    exact (List.mem_append.1 hmem).elim (hsince call) (hundrawn call)
  · intro hnone
    obtain ⟨hresult, k, hk, hticked⟩ := (comesToNothing he).obeyed hnone
    have hholds := holds_afterFrame hk
    rw [afterFrame_eq_console_report] at hholds
    exact ⟨k, _, hk, frame_of_report_error hresult, hticked ▸ k.machine.ticksTo_tick, hticked, hholds⟩
  · intro limit
    obtain ⟨r, hr⟩ := exists_loopReport_of_stopped he h (limit.map UInt64.toNat)
    refine ⟨r, hr, ?_, comesBackAtOnce he hr⟩
    rw [loop_eq_outcome_report, hr]
    rfl

/-- The first instruction returns from nowhere, with the sound timer at five. -/
def returningNowhere : Console Script :=
  start { (Machine.start ⟨fun _ => 0, 0⟩ {}).after [.load [0x00, 0xee]] with timers := ⟨0, 5⟩ }
    { batches := [[7], [7]] }

/-- The buzzer is on when the program ends. One more frame leaves it on, and the loop after that runs a
frame and silences it. -/
theorem fault_ends_program_underflow : ∃ d calls flags e,
    FaultLeaves Script.host twoSteps (.stackUnderflow 0x200) d [] d ∧
      Played Script.host twoSteps d calls flags e ∧ calls = [(.peek, none), (.flush, none)] ∧
      d.machine.StandsStill e.machine ∧ Script.host.isBeeping e.host = true ∧
      ∃ r, loopReport Script.host twoSteps (some 3) e = some r ∧
        r.result = .error (.machine (.stackUnderflow 0x200)) ∧
        r.calls.countP (·.1 = .peek) = 1 ∧ Script.host.isBeeping r.console.host = false := by
  have facts : (report Script.host twoSteps returningNowhere).result =
        .error (.machine (.stackUnderflow 0x200)) ∧
      (report Script.host twoSteps (report Script.host twoSteps returningNowhere).console).calls =
        [(.peek, none), (.flush, none)] ∧
      Script.host.isBeeping (afterFrame Script.host twoSteps
        (report Script.host twoSteps returningNowhere).console).host = true ∧
      Script.host.quitRequested (afterFrame Script.host twoSteps
        (report Script.host twoSteps returningNowhere).console).host = false ∧
      ∀ r ∈ loopReport Script.host twoSteps (some 3) (afterFrame Script.host twoSteps
        (report Script.host twoSteps returningNowhere).console),
          ∀ call ∈ r.calls, call.2 = none := by
    decide +kernel
  obtain ⟨hfails, hcalls, hbeeping, hquit, hobeyed⟩ := facts
  have hleaves := FaultLeaves.frame (frame_of_report_error hfails)
  generalize (report Script.host twoSteps returningNowhere).console = d at *
  have hplayed : Played Script.host twoSteps d _ _ _ := .frame .nothing
  have hover := fault_ends_program hleaves hplayed
  obtain ⟨r, hr, -, hback⟩ := hover.loop (some 3)
  obtain ⟨hresult, hpeeks⟩ := hback.inside (hobeyed r hr) (by decide) hquit
  refine ⟨d, _, _, _, hleaves, hplayed, hcalls, hover.standsStill, hbeeping, r, hr, hresult,
    hpeeks, ?_⟩
  exact hback.silent (hobeyed r hr) buzzerObeys_script.stop_ok

end Console

end ChipEight
