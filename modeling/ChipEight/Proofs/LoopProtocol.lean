import ChipEight.Proofs.FrameProtocol
import ChipEight.Proofs.LoopCourse

/-! What a loop makes of its host and how it answers. A loop is run at a host that keeps its calls, and
its report holds the result, the calls and the console afterwards. The calls are those of its frames, one
frame after the other, and then the one that switches the buzzer off, if it is on; that last call is made
however the loop has come to its end, and if it fails, its failure is the result. -/
namespace ChipEight

/-- A buzzer that is off once it has been switched off. -/
def Host.StopSilences {σ : Type} (h : Host σ) : Prop :=
  ∀ s, (h.stop s).result = .ok () → h.isBeeping (h.stop s).state = false

/-- A buzzer that is as it was switched, and as it was if it could not be switched. -/
structure Host.BuzzerObeys {σ : Type} (h : Host σ) : Prop where
  beep_ok : ∀ s, (h.beep s).result = .ok () → h.isBeeping (h.beep s).state = true
  beep_error : ∀ s message, (h.beep s).result = .error message →
    h.isBeeping (h.beep s).state = h.isBeeping s
  stop_ok : h.StopSilences
  stop_error : ∀ s message, (h.stop s).result = .error message →
    h.isBeeping (h.stop s).state = h.isBeeping s

namespace Host

variable {σ : Type}

lemma maps_after (h : Host σ) (calls : List (Call × Option String)) :
    Maps (fun t : Traced σ => ⟨t.state, calls.toArray ++ t.calls⟩) h.traced h.traced := by
  have hcall {α : Type} (call : Call) (act : σ → Answer σ α) (t : Traced σ) :
      traceCall call act ⟨t.state, calls.toArray ++ t.calls⟩ = (traceCall call act t).map
        (fun t : Traced σ => ⟨t.state, calls.toArray ++ t.calls⟩) := by
    simp only [traceCall, Answer.map, Array.append_push]
  refine ⟨hcall _ _, hcall _ _, fun _ => rfl, ?_, fun _ => hcall _ _⟩
  intro sounding t
  have hbeeping : h.traced.isBeeping ⟨t.state, calls.toArray ++ t.calls⟩ =
      h.traced.isBeeping t := rfl
  unfold follow
  rw [hbeeping]
  cases sounding <;> cases h.traced.isBeeping t
  · rfl
  · exact hcall .stop h.stop t
  · exact hcall .beep h.beep t
  · rfl

end Host

namespace Console

variable {σ : Type}

/-- The console at a host that keeps its calls, after some of them. -/
def tracedAfter (c : Console σ) (calls : List (Call × Option String)) : Console (Traced σ) :=
  ⟨c.machine, c.holds, ⟨c.host, calls.toArray⟩, c.log⟩

variable {h : Host σ} {s : FrameSettings} {limit : Option Nat} {c : Console σ} {n : Nat}

lemma afterFrame_tracedAfter (h : Host σ) (s : FrameSettings) (c : Console σ)
    (calls : List (Call × Option String)) : afterFrame h.traced s (c.tracedAfter calls) =
      (afterFrame h s c).tracedAfter (calls ++ (report h s c).calls) := by
  have hmaps := Maps.frame (h.maps_after calls) s c.traced
  have hstart : c.traced.map (fun t : Traced σ => ⟨t.state, calls.toArray ++ t.calls⟩) =
      c.tracedAfter calls := by
    simp [Console.map, traced, tracedAfter]
  rw [hstart] at hmaps
  unfold afterFrame
  rw [hmaps, frame_eq_outcome_report h s c, report]
  cases frame h.traced s c.traced <;>
    simp [mapResult, Console.map, FrameReport.outcome, tracedAfter, erased]

def callsOfFrames (h : Host σ) (s : FrameSettings) (c : Console σ) (n : Nat) :
    List (Call × Option String) :=
  (List.range n).flatMap fun k => (report h s (afterFrames h s c k)).calls

lemma callsOfFrames_succ (h : Host σ) (s : FrameSettings) (c : Console σ) (n : Nat) :
    callsOfFrames h s c (n + 1) =
      callsOfFrames h s c n ++ (report h s (afterFrames h s c n)).calls := by
  simp only [callsOfFrames, List.range_succ, List.flatMap_append, List.flatMap_singleton]

lemma afterFrames_traced (h : Host σ) (s : FrameSettings) (c : Console σ) (n : Nat) :
    afterFrames h.traced s c.traced n =
      (afterFrames h s c n).tracedAfter (callsOfFrames h s c n) := by
  induction n with
  | zero => rfl
  | succ n ih =>
    rw [afterFrames, ih, afterFrame_tracedAfter, callsOfFrames_succ]
    rfl

def Outcome.result : Outcome σ → Except Trouble Nat
  | .ok frames _ => .ok frames
  | .error t _ => .error t

def Outcome.console : Outcome σ → Console σ
  | .ok _ c => c
  | .error _ c => c

structure LoopReport (σ : Type) where
  result : Except Trouble Nat
  /-- The calls made, each with the text it failed with. -/
  calls : List (Call × Option String)
  console : Console σ

def LoopReport.ofOutcome (o : Outcome (Traced σ)) : LoopReport σ :=
  ⟨o.result, o.console.host.calls.toList, o.console.erased⟩

def LoopReport.outcome (r : LoopReport σ) : Outcome σ :=
  match r.result with
  | .ok frames => .ok frames r.console
  | .error t => .error t r.console

def loopReport (h : Host σ) (s : FrameSettings) (limit : Option Nat) (c : Console σ) :
    Option (LoopReport σ) :=
  (loop h.traced s limit c.traced).map .ofOutcome

theorem loop_eq_outcome_report (h : Host σ) (s : FrameSettings) (limit : Option Nat)
    (c : Console σ) : loop h s limit c = (loopReport h s limit c).map LoopReport.outcome := by
  have hmaps : loop h s limit c =
      (loop h.traced s limit c.traced).map (mapResult Traced.state) :=
    loop_map h.maps_traced s limit c.traced
  rw [hmaps, loopReport, Option.map_map]
  congr 1
  funext o
  cases o <;> rfl

/-- How many frames a loop has run that comes to this end: one that fails is run but does not count. -/
def framesRun (n : Nat) : Outcome σ → Nat
  | .ok _ _ => n
  | .error _ _ => n + 1

/-- The frames are over with the outcome `e` and the calls `calls`: the buzzer is told to be silent, and
if that fails, it is the result. -/
structure Closes (h : Host σ) (e : Outcome σ) (calls : List (Call × Option String))
    (r : LoopReport σ) : Prop where
  calls : r.calls = calls ++ h.followCalls false e.console.host
  console : r.console = e.console.called (h.follow false)
  result : r.result =
    match (h.follow false e.console.host).result with
    | .ok () => e.result
    | .error message => .error (.host message)

/-- What is left to do at the end of a loop at a host that keeps its calls. -/
def Outcome.tracedAfter (calls : List (Call × Option String)) : Outcome σ → Outcome (Traced σ)
  | .ok frames c => .ok frames (c.tracedAfter calls)
  | .error t c => .error t (c.tracedAfter calls)

lemma silence_eq (h : Host σ) (e : Outcome σ) :
    (silence h e).console = e.console.called (h.follow false) ∧
    (silence h e).result =
      match (h.follow false e.console.host).result with
      | .ok () => e.result
      | .error message => .error (.host message) := by
  cases e with
  | ok frames c | error t c =>
    cases hr : (h.follow false c.host).result with
    | ok u =>
      simp only [silence, ask_of_ok hr, Outcome.console, hr]
      exact ⟨rfl, rfl⟩
    | error message =>
      simp only [silence, ask_of_error hr, Outcome.console, hr]
      exact ⟨rfl, rfl⟩

lemma closes_tracedAfter (h : Host σ) (e : Outcome σ) (calls : List (Call × Option String)) :
    Closes h e calls (.ofOutcome (silence h.traced (e.tracedAfter calls))) := by
  obtain ⟨hconsole, hresult⟩ := silence_eq h.traced (e.tracedAfter calls)
  have hlast : (e.tracedAfter calls).console = e.console.tracedAfter calls := by cases e <;> rfl
  have hfirst : (e.tracedAfter calls).result = e.result := by cases e <;> rfl
  have hplain := h.follow_eq_map false ⟨e.console.host, calls.toArray⟩
  rw [hlast] at hconsole hresult
  rw [hfirst] at hresult
  refine ⟨?_, ?_, ?_⟩
  · simp only [LoopReport.ofOutcome, hconsole]
    exact h.calls_follow false ⟨e.console.host, calls.toArray⟩
  · simp only [LoopReport.ofOutcome, hconsole, called, hplain]
    rfl
  · simp only [LoopReport.ofOutcome, hresult, hplain]
    rfl

lemma afterFrame_eq_console_report (h : Host σ) (s : FrameSettings) (c : Console σ) :
    afterFrame h s c = (report h s c).console := by
  rw [afterFrame, frame_eq_outcome_report, FrameReport.outcome]
  cases (report h s c).result <;> rfl

lemma goesOn_iff_report {k : Nat} : GoesOn h s limit c k ↔ (∀ m, limit = some m → k < m) ∧
    h.quitRequested (afterFrames h s c k).host = false ∧
      (report h s (afterFrames h s c k)).result = .ok () := by
  have hframe := frame_eq_outcome_report h s (afterFrames h s c k)
  have hnext : afterFrames h s c (k + 1) = (report h s (afterFrames h s c k)).console :=
    afterFrame_eq_console_report h s _
  unfold FrameReport.outcome at hframe
  constructor
  · intro hk
    refine ⟨hk.below, hk.unasked, ?_⟩
    rw [hk.frame] at hframe
    cases hr : (report h s (afterFrames h s c k)).result with
    | ok u => rfl
    | error t =>
      rw [hr] at hframe
      cases hframe
  · rintro ⟨hbelow, hunasked, hr⟩
    rw [hr, ← hnext] at hframe
    exact ⟨hbelow, hunasked, hframe⟩

lemma GoesOn.erased {k : Nat} (hk : GoesOn h.traced s limit c.traced k) : GoesOn h s limit c k := by
  have hunasked := hk.unasked
  have hframe := Erases.frame h s (afterFrames h.traced s c.traced k)
  rw [hk.frame, afterFrames_traced, afterFrames_traced] at hframe
  rw [afterFrames_traced] at hunasked
  exact ⟨hk.below, hunasked, hframe⟩

lemma Ending.erased {e : Outcome (Traced σ)} (he : Ending h.traced s limit c.traced n e) :
    ∃ e', Ending h s limit c n e' ∧
      e = e'.tracedAfter (callsOfFrames h s c (framesRun n e')) := by
  cases he with
  | limited reached => exact ⟨_, .limited reached, by rw [afterFrames_traced]; rfl⟩
  | quit below asked =>
    rw [afterFrames_traced] at asked
    exact ⟨_, .quit below asked, by rw [afterFrames_traced]; rfl⟩
  | @troubled t d below unasked fails =>
    rw [afterFrames_traced] at unasked fails
    have hplain := Erases.frame h s ((afterFrames h s c n).tracedAfter (callsOfFrames h s c n))
    rw [fails] at hplain
    have hafter := afterFrame_tracedAfter h s (afterFrames h s c n) (callsOfFrames h s c n)
    rw [← callsOfFrames_succ] at hafter
    have hd : d = d.erased.tracedAfter (callsOfFrames h s c (n + 1)) := by
      have hlast : afterFrame h s (afterFrames h s c n) = d.erased := by
        change frame h s (afterFrames h s c n) = _ at hplain
        rw [afterFrame, hplain]
        rfl
      rw [hlast, afterFrame, fails] at hafter
      exact hafter
    exact ⟨.error t d.erased, .troubled below unasked hplain, congrArg (EStateM.Result.error t) hd⟩

lemma closes_of_loopReport {r : LoopReport σ} (hr : loopReport h s limit c = some r) :
    ∃ n e, (∀ k < n, GoesOn h s limit c k) ∧ Ending h s limit c n e ∧
      Closes h e (callsOfFrames h s c (framesRun n e)) r := by
  obtain ⟨o, ho, rfl⟩ := Option.map_eq_some_iff.1 hr
  obtain ⟨n, t, hgood, hending, rfl⟩ := loop_course ho
  obtain ⟨e, he, rfl⟩ := hending.erased
  exact ⟨n, e, fun k hk => (hgood k hk).erased, he, closes_tracedAfter h e _⟩

lemma countP_peek_report (h : Host σ) (s : FrameSettings) (c : Console σ) :
    (report h s c).calls.countP (·.1 = .peek) = 1 := by
  have hswitch (sounding beeping : Bool) :
      ((Host.switching sounding beeping).map fun call => (call, (none : Option String))).countP
        (·.1 = .peek) = 0 := by
    cases sounding <;> cases beeping <;> rfl
  cases frameCase h s c with
  | unread _ calls | unflushed _ calls => simp [calls]
  | unfollowed _ _ switch calls => rcases switch with rfl | rfl <;> simp [calls]
  | faulted _ calls | ended _ _ calls => simp [calls, callsBeforeSteps, hswitch]

/-- Every frame looks at the keys once, so the looks tell the frames. -/
lemma countP_peek_callsOfFrames (h : Host σ) (s : FrameSettings) (c : Console σ) (n : Nat) :
    (callsOfFrames h s c n).countP (·.1 = .peek) = n := by
  induction n with
  | zero => rfl
  | succ n ih => rw [callsOfFrames_succ, List.countP_append, ih, countP_peek_report]

lemma countP_peek_followCalls (h : Host σ) (sounding : Bool) (host : σ) :
    (h.followCalls sounding host).countP (·.1 = .peek) = 0 := by
  unfold Host.followCalls
  cases sounding <;> cases h.isBeeping host <;> rfl

/-- What the report of a loop tells that ended in `e` after `n` frames had gone well. -/
structure LoopProtocol (h : Host σ) (s : FrameSettings) (limit : Option Nat) (c : Console σ)
    (r : LoopReport σ) (n : Nat) (e : Outcome σ) : Prop where
  /-- It is the report of the loop at the host itself. -/
  loop_eq : loop h s limit c = some r.outcome
  wentWell : ∀ k < n, GoesOn h s limit c k ∧
    (report h s (afterFrames h s c k)).calls.filter (·.1 = .draw) = [(.draw, none)]
  ending : Ending h s limit c n e
  closes : Closes h e (callsOfFrames h s c (framesRun n e)) r
  frames_le : ∀ m, limit = some m → r.calls.countP (·.1 = .peek) ≤ m
  ok : ∀ m, r.result = .ok m → m = n ∧ r.calls.countP (·.1 = .peek) = m ∧
    (limit = some m ∨ (∀ l, limit = some l → m < l) ∧
      h.quitRequested (afterFrames h s c m).host = true)
  /-- A frame that fails is the last one. -/
  fails : ∀ t d, e = .error t d → r.calls.countP (·.1 = .peek) = n + 1 ∧
    ((h.follow false d.host).result = .ok () → r.result = .error t)
  /-- At the limit it makes no difference whether quitting is asked for by then. -/
  unconsulted : limit = some n → ∀ quitRequested : σ → Bool,
    (∀ k < n, quitRequested (afterFrames h s c k).host = false) →
      loop { h with quitRequested := quitRequested } s limit c = some r.outcome
  silent : h.BuzzerObeys → h.isBeeping r.console.host = false ∨
    ∃ message, r.result = .error (.host message) ∧ r.calls.getLast? = some (.stop, some message)

section Report
variable {r : LoopReport σ} {e : Outcome σ}

lemma Closes.countP_peek (hr : Closes h e (callsOfFrames h s c (framesRun n e)) r) :
    r.calls.countP (·.1 = .peek) = framesRun n e := by
  rw [hr.calls, List.countP_append, countP_peek_callsOfFrames, countP_peek_followCalls, Nat.add_zero]

lemma Closes.silent {calls : List (Call × Option String)} (hr : Closes h e calls r)
    (hb : h.BuzzerObeys) : h.isBeeping r.console.host = false ∨
      ∃ message, r.result = .error (.host message) ∧
        r.calls.getLast? = some (.stop, some message) := by
  have hhost : r.console.host = (h.follow false e.console.host).state :=
    congrArg Console.host hr.console
  cases hon : h.isBeeping e.console.host with
  | false =>
    left
    rw [hhost, Host.follow_of_isBeeping_eq h hon]
    exact hon
  | true =>
    have hstop := Host.follow_false h hon
    cases hs : (h.stop e.console.host).result with
    | ok u =>
      left
      rw [hhost, hstop]
      exact hb.stop_ok _ hs
    | error message =>
      right
      refine ⟨message, ?_, ?_⟩
      · rw [hr.result, hstop, hs]
      · rw [hr.calls, Host.followCalls, hon, hstop, hs]
        exact List.getLast?_concat

lemma Ending.framesRun_le (he : Ending h s limit c n e) {m : Nat} (hm : limit = some m) :
    framesRun n e ≤ m := by
  cases he with
  | limited reached =>
    rw [reached] at hm
    cases hm
    exact Nat.le_refl n
  | quit below _ | troubled below _ _ =>
    have := below m hm
    simp only [framesRun]
    omega

lemma Ending.limited_of_eq (he : Ending h s limit c n e) (hn : limit = some n) :
    e = .ok n (afterFrames h s c n) := by
  cases he with
  | limited _ => rfl
  | quit below _ | troubled below _ _ => exact absurd (below n hn) (Nat.lt_irrefl n)

lemma afterFrames_withQuit (h : Host σ) (quitRequested : σ → Bool) (s : FrameSettings)
    (c : Console σ) (k : Nat) :
    afterFrames { h with quitRequested := quitRequested } s c k = afterFrames h s c k := by
  induction k with
  | zero => rfl
  | succ k ih =>
    rw [afterFrames, ih]
    rfl

lemma loop_withQuit (hgood : ∀ k < n, GoesOn h s limit c k) (hn : limit = some n)
    (hlong : n < longestLoop) {quitRequested : σ → Bool}
    (hquit : ∀ k < n, quitRequested (afterFrames h s c k).host = false) :
    loop { h with quitRequested := quitRequested } s limit c =
      some (silence h (.ok n (afterFrames h s c n))) := by
  have hgood' : ∀ k < n, GoesOn { h with quitRequested := quitRequested } s limit c k := by
    intro k hk
    refine ⟨(hgood k hk).below, ?_, ?_⟩
    · rw [afterFrames_withQuit]
      exact hquit k hk
    · rw [afterFrames_withQuit h, afterFrames_withQuit h quitRequested s c (k + 1)]
      exact (hgood k hk).frame
  rw [loop_of_ending hgood' (.limited hn) hlong, afterFrames_withQuit]
  rfl

lemma outcome_eq_silence {calls : List (Call × Option String)} (hr : Closes h e calls r) :
    silence h e = r.outcome := by
  obtain ⟨hconsole, hresult⟩ := silence_eq h e
  rw [← hr.console] at hconsole
  rw [← hr.result] at hresult
  unfold LoopReport.outcome
  rw [← hconsole, ← hresult]
  cases silence h e <;> rfl

end Report

lemma loopProtocol_of_closes (hlimit : ∀ m, limit = some m → m < longestLoop)
    (hgood : ∀ k < n, GoesOn h s limit c k) (hending : Ending h s limit c n e)
    (hloop : loop h s limit c = some r.outcome)
    (hcloses : Closes h e (callsOfFrames h s c (framesRun n e)) r) :
    LoopProtocol h s limit c r n e := by
  have hpeeks := hcloses.countP_peek
  refine {
    loop_eq := hloop
    wentWell := ?_
    ending := hending
    closes := hcloses
    frames_le := ?_
    ok := ?_
    fails := ?_
    unconsulted := ?_
    silent := hcloses.silent }
  · intro k hk
    obtain ⟨-, -, hresult⟩ := goesOn_iff_report.1 (hgood k hk)
    exact ⟨hgood k hk, (frameCase h s (afterFrames h s c k)).ok_iff.1 hresult⟩
  · intro m hm
    rw [hpeeks]
    exact hending.framesRun_le hm
  · intro m hm
    have hresult := hcloses.result
    rw [hm] at hresult
    cases hf : (h.follow false e.console.host).result with
    | error message =>
      rw [hf] at hresult
      cases hresult
    | ok u =>
      rw [hf] at hresult
      cases hending with
      | limited reached =>
        cases hresult
        exact ⟨rfl, hpeeks, .inl reached⟩
      | quit below asked =>
        cases hresult
        exact ⟨rfl, hpeeks, .inr ⟨below, asked⟩⟩
      | troubled _ _ _ => cases hresult
  · intro t d he
    subst he
    refine ⟨hpeeks, ?_⟩
    intro hf
    have hresult := hcloses.result
    simp only [Outcome.console, hf] at hresult
    exact hresult
  · intro hn quitRequested hquit
    rw [loop_withQuit hgood hn (hlimit n hn) hquit, ← hending.limited_of_eq hn]
    exact congrArg some (outcome_eq_silence hcloses)

/-- With a limit a loop comes to an end, and however a loop ends, it has run the frames that it tells of,
has told the buzzer to be silent after them, and has done nothing else. -/
theorem loop_protocol (h : Host σ) (s : FrameSettings) (limit : Option UInt64) (c : Console σ) :
    (limit.isSome → (loopReport h s (limit.map UInt64.toNat) c).isSome) ∧
      ∀ r, loopReport h s (limit.map UInt64.toNat) c = some r →
        ∃ n e, LoopProtocol h s (limit.map UInt64.toNat) c r n e := by
  have hlong : ∀ m, limit.map UInt64.toNat = some m → m < longestLoop := by
    intro m hm
    obtain ⟨l, -, rfl⟩ := Option.map_eq_some_iff.1 hm
    exact l.toNat_lt
  constructor
  · intro hlimit
    obtain ⟨m, rfl⟩ := Option.isSome_iff_exists.1 hlimit
    rw [loopReport, Option.isSome_map]
    exact loop_isSome h.traced s (hlong _ rfl) c.traced
  · intro r hr
    have hloop := loop_eq_outcome_report h s (limit.map UInt64.toNat) c
    rw [hr] at hloop
    obtain ⟨n, e, hgood, he, hcloses⟩ := closes_of_loopReport hr
    exact ⟨n, e, loopProtocol_of_closes hlong hgood he hloop hcloses⟩

/-- A sound timer at three, and a buzzer that will not be switched off. -/
def atStuckBuzzer : Console Script :=
  start { Machine.start ⟨fun _ => 0, 0⟩ {} with timers := ⟨0, 3⟩ } { failures := [(.stop, "stuck")] }

/-- Two frames go well, and then the buzzer stays on and that is the result. -/
theorem loop_protocol_stuck_buzzer : ∃ r,
    loopReport Script.host {} (some 2) atStuckBuzzer = some r ∧
      r.result = .error (.host "stuck") ∧
      r.calls = [(.peek, none), (.flush, none), (.beep, none), (.draw, none), (.peek, none),
        (.flush, none), (.draw, none), (.stop, some "stuck")] ∧
      ∃ n e, LoopProtocol Script.host {} (some 2) atStuckBuzzer r n e := by
  obtain ⟨hreturns, hprotocol⟩ := loop_protocol Script.host {} (some 2) atStuckBuzzer
  obtain ⟨r, hr⟩ := Option.isSome_iff_exists.1 (hreturns rfl)
  have facts : (loopReport Script.host {} (some 2) atStuckBuzzer).map (·.result) =
        some (.error (.host "stuck")) ∧
      (loopReport Script.host {} (some 2) atStuckBuzzer).map (·.calls) =
        some [(.peek, none), (.flush, none), (.beep, none), (.draw, none), (.peek, none),
          (.flush, none), (.draw, none), (.stop, some "stuck")] := by
    decide +kernel
  have hlimit : (some (2 : UInt64)).map UInt64.toNat = some 2 := rfl
  rw [hlimit] at hr
  rw [hr] at facts
  obtain ⟨hresult, hcalls⟩ := facts
  exact ⟨r, hr, Option.some.inj hresult, Option.some.inj hcalls, hprotocol r hr⟩

end Console

end ChipEight
