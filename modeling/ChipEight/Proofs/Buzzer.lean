import ChipEight.Proofs.Following

/-! The buzzer over any number of frames and loops. Each stretch of a run is told by the calls that it
makes and by the flags that the buzzer is to follow in it, one for each frame that comes as far and one
at the end of each loop. Such stretches are put one behind the other, with the buzzer at the seam as the
first leaves it; so what holds of a single call to follow holds of the whole run: the calls that succeed
switch the buzzer by turns, and if none fails, it is switched on where the flags rise. -/
namespace ChipEight

def Call.switches : Call → Bool
  | .beep | .stop => true
  | .peek | .flush | .draw => false

/-- The switches among some calls that have succeeded. -/
def switched (calls : List (Call × Option String)) : List Call :=
  (calls.filter fun call => call.1.switches && call.2.isNone).map (·.1)

def NoSwitchFails (calls : List (Call × Option String)) : Prop :=
  ∀ call ∈ calls, call.1.switches = true → call.2 = none

instance {calls : List (Call × Option String)} : Decidable (NoSwitchFails calls) :=
  inferInstanceAs (Decidable (∀ call ∈ calls, call.1.switches = true → call.2 = none))

/-- Calls that switch by turns, beginning with the buzzer as in the first flag and ending as in the
second. -/
inductive Alternate : Bool → List Call → Bool → Prop
  | nothing {on : Bool} : Alternate on [] on
  | beep {calls : List Call} {after : Bool} (rest : Alternate true calls after) :
      Alternate false (.beep :: calls) after
  | stop {calls : List Call} {after : Bool} (rest : Alternate false calls after) :
      Alternate true (.stop :: calls) after

/-- How often a flag is up that was not up before; `before` is the flag in front of the first. -/
def risingEdges : Bool → List Bool → Nat
  | _, [] => 0
  | before, flag :: flags => (if flag && !before then 1 else 0) + risingEdges flag flags

lemma switched_append (calls calls' : List (Call × Option String)) :
    switched (calls ++ calls') = switched calls ++ switched calls' := by
  simp only [switched, List.filter_append, List.map_append]

lemma noSwitchFails_append {calls calls' : List (Call × Option String)} :
    NoSwitchFails (calls ++ calls') ↔ NoSwitchFails calls ∧ NoSwitchFails calls' :=
  List.forall_mem_append

lemma Alternate.append {before on after : Bool} {calls calls' : List Call}
    (h : Alternate before calls on) (h' : Alternate on calls' after) :
    Alternate before (calls ++ calls') after := by
  induction h with
  | nothing => exact h'
  | beep _ ih => exact .beep (ih h')
  | stop _ ih => exact .stop (ih h')

lemma risingEdges_append (before : Bool) (flags flags' : List Bool) :
    risingEdges before (flags ++ flags') =
      risingEdges before flags + risingEdges (flags.getLastD before) flags' := by
  induction flags generalizing before with
  | nil => exact (Nat.zero_add _).symm
  | cons flag flags ih =>
    rw [List.cons_append, risingEdges, risingEdges, ih, List.getLastD_cons, Nat.add_assoc]

/-- What a stretch of a run does to the buzzer that is `before` in front of it and `after` behind it. -/
structure Switched (before : Bool) (calls : List (Call × Option String)) (flags : List Bool)
    (after : Bool) : Prop where
  alternate : Alternate before (switched calls) after
  last : NoSwitchFails calls → after = flags.getLastD before
  rises : NoSwitchFails calls → calls.countP (·.1 = .beep) = risingEdges before flags

namespace Switched

variable {before on after : Bool} {calls calls' : List (Call × Option String)}
  {flags flags' : List Bool}

lemma append (h : Switched before calls flags on) (h' : Switched on calls' flags' after) :
    Switched before (calls ++ calls') (flags ++ flags') after where
  alternate := by
    rw [switched_append]
    exact h.alternate.append h'.alternate
  last := by
    intro hnone
    obtain ⟨hleft, hright⟩ := noSwitchFails_append.1 hnone
    rw [h'.last hright, h.last hleft]
    cases flags' with
    | nil => rw [List.append_nil, List.getLastD_nil]
    | cons flag flags' => simp
  rises := by
    intro hnone
    obtain ⟨hleft, hright⟩ := noSwitchFails_append.1 hnone
    rw [List.countP_append, h.rises hleft, h'.rises hright, risingEdges_append, h.last hleft]

lemma idle (h : ∀ call ∈ calls, call.1.switches = false) : Switched on calls [] on where
  alternate := by
    have hnil : switched calls = [] := by
      rw [switched, List.map_eq_nil_iff, List.filter_eq_nil_iff]
      intro call hmem
      simp [h call hmem]
    rw [hnil]
    exact .nothing
  last _ := rfl
  rises _ := by
    rw [risingEdges, List.countP_eq_zero]
    intro call hmem hbeep
    have hswitches := h call hmem
    rw [of_decide_eq_true hbeep] at hswitches
    cases hswitches

variable {σ : Type} {h : Host σ}

/-- The buzzer is already as it is to be, and no call is made. -/
lemma still (on : Bool) : Switched on [] [on] on where
  alternate := .nothing
  last _ := rfl
  rises _ := by cases on <;> rfl

/-- A switch that fails leaves the buzzer as it is. -/
lemma refused {call : Call} (hcall : call.switches = true) (message : String) (flag : Bool) :
    Switched on [(call, some message)] [flag] on where
  alternate := by
    have hnil : switched [(call, some message)] = [] := by simp [switched]
    rw [hnil]
    exact .nothing
  last hnone := nomatch hnone _ (List.mem_singleton_self _) hcall
  rises hnone := nomatch hnone _ (List.mem_singleton_self _) hcall

theorem follow (hobeys : h.BuzzerObeys) (sounding : Bool) (host : σ) :
    Switched (h.isBeeping host) (h.followCalls sounding host) [sounding]
      (h.isBeeping (h.follow sounding host).state) := by
  cases hb : h.isBeeping host with
  | true =>
    cases sounding with
    | true =>
      rw [h.followCalls_of_isBeeping_eq hb, h.follow_of_isBeeping_eq hb, hb]
      exact .still true
    | false =>
      rw [Host.followCalls, hb, h.follow_false hb]
      cases hr : (h.stop host).result with
      | ok u =>
        rw [hobeys.stop_ok host hr]
        exact ⟨.stop .nothing, fun _ => rfl, fun _ => rfl⟩
      | error message =>
        rw [hobeys.stop_error host message hr, hb]
        exact .refused rfl message false
  | false =>
    cases sounding with
    | true =>
      rw [Host.followCalls, hb, h.follow_true hb]
      cases hr : (h.beep host).result with
      | ok u =>
        rw [hobeys.beep_ok host hr]
        exact ⟨.beep .nothing, fun _ => rfl, fun _ => rfl⟩
      | error message =>
        rw [hobeys.beep_error host message hr, hb]
        exact .refused rfl message true
    | false =>
      rw [h.followCalls_of_isBeeping_eq hb, h.follow_of_isBeeping_eq hb, hb]
      exact .still false

end Switched

namespace Console

variable {σ : Type}

def followFlags (h : Host σ) (s : FrameSettings) (c : Console σ) : List Bool :=
  match updateKeys h s c with
  | .ok () d => [decide (0 < d.machine.tick.timers.sound)]
  | .error _ _ => []

def flagsOfFrames (h : Host σ) (s : FrameSettings) (c : Console σ) (n : Nat) : List Bool :=
  (List.range n).flatMap fun k => followFlags h s (afterFrames h s c k)

lemma flagsOfFrames_succ (h : Host σ) (s : FrameSettings) (c : Console σ) (n : Nat) :
    flagsOfFrames h s c (n + 1) = flagsOfFrames h s c n ++ followFlags h s (afterFrames h s c n) := by
  simp only [flagsOfFrames, List.range_succ, List.flatMap_append, List.flatMap_singleton]

/-- Frames and loops that have been run one after the other from `c` to `d`, with their calls and the
flags that the buzzer was to follow: each frame of a loop looks at the keys once, and at its end a loop
has the buzzer be silent. -/
inductive Played (h : Host σ) (s : FrameSettings) (c : Console σ) :
    List (Call × Option String) → List Bool → Console σ → Prop
  | nothing : Played h s c [] [] c
  | frame {calls : List (Call × Option String)} {flags : List Bool} {d : Console σ}
      (before : Played h s c calls flags d) :
      Played h s c (calls ++ (report h s d).calls) (flags ++ followFlags h s d) (afterFrame h s d)
  | loop {calls : List (Call × Option String)} {flags : List Bool} {d : Console σ}
      {r : LoopReport σ} (limit : Option UInt64) (before : Played h s c calls flags d)
      (ran : loopReport h s (limit.map UInt64.toNat) d = some r) :
      Played h s c (calls ++ r.calls)
        (flags ++ (flagsOfFrames h s d (r.calls.countP (·.1 = .peek)) ++ [false])) r.console

variable {h : Host σ} {s : FrameSettings} {c : Console σ} {keys : List UInt8}

lemma followFlags_of_past (peek : (h.traced.peek c.traced.host).result = .ok keys)
    (flush : (h.traced.flush (h.traced.peek c.traced.host).state).result = .ok ()) :
    followFlags h s c = [(c.traced.ticked h.traced s keys).machine.isSounding] := by
  rw [followFlags, updateKeys_updated peek flush]
  exact congrArg (fun flag => [flag]) (Timers.isSounding_eq _).symm

lemma isBeeping_ticked (hapart : h.BuzzerApart) (s : FrameSettings) (c : Console σ)
    (keys : List UInt8) :
    h.isBeeping (c.traced.ticked h.traced s keys).host.state = h.isBeeping c.host := by
  have hhost : (c.traced.ticked h.traced s keys).host.state =
      (h.flush (h.peek c.host).state).state :=
    congrArg Traced.state (host_updated c.traced h.traced s keys)
  rw [hhost, hapart.flush, hapart.peek]

lemma calls_followed (peek : (h.traced.peek c.traced.host).result = .ok keys)
    (flush : (h.traced.flush (h.traced.peek c.traced.host).state).result = .ok ()) :
    (c.traced.followed h.traced s keys).host.calls.toList = [(.peek, none), (.flush, none)] ++
      h.followCalls (c.traced.ticked h.traced s keys).machine.isSounding
        (c.traced.ticked h.traced s keys).host.state := by
  rw [← calls_ticked peek flush]
  exact h.calls_follow _ (c.traced.ticked h.traced s keys).host

lemma state_followed (h : Host σ) (s : FrameSettings) (c : Console σ) (keys : List UInt8) :
    (c.traced.followed h.traced s keys).host.state =
      (h.follow (c.traced.ticked h.traced s keys).machine.isSounding
        (c.traced.ticked h.traced s keys).host.state).state := by
  rw [h.follow_eq_map]
  rfl

lemma switched_followed (hobeys : h.BuzzerObeys) (hapart : h.BuzzerApart)
    (peek : (h.traced.peek c.traced.host).result = .ok keys)
    (flush : (h.traced.flush (h.traced.peek c.traced.host).state).result = .ok ()) :
    Switched (h.isBeeping c.host) (c.traced.followed h.traced s keys).host.calls.toList
      (followFlags h s c) (h.isBeeping (c.traced.followed h.traced s keys).host.state) := by
  have hidle : Switched (h.isBeeping c.host) [(.peek, none), (.flush, none)] []
      (h.isBeeping (c.traced.ticked h.traced s keys).host.state) := by
    rw [isBeeping_ticked hapart]
    exact .idle (by simp [Call.switches])
  rw [followFlags_of_past peek flush, calls_followed peek flush, state_followed]
  exact hidle.append (.follow hobeys _ _)

lemma switched_past (hobeys : h.BuzzerObeys) (hapart : h.BuzzerApart) {d : Console (Traced σ)}
    {result : Except Failure Unit} (past : PastSteps h.traced s c.traced keys result d) :
    Switched (h.isBeeping c.host) d.host.calls.toList (followFlags h s c)
      (h.isBeeping d.host.state) := by
  rw [past.host]
  exact switched_followed hobeys hapart past.peek past.flush

lemma switched_drawn (hobeys : h.BuzzerObeys) (hapart : h.BuzzerApart) {d : Console (Traced σ)}
    {result : Except Failure Unit} (past : PastSteps h.traced s c.traced keys result d)
    {failure : Option String}
    (hcalls : (d.called (h.traced.draw d.machine.screen)).host.calls.toList =
      d.host.calls.toList ++ [(.draw, failure)]) :
    Switched (h.isBeeping c.host) (d.called (h.traced.draw d.machine.screen)).host.calls.toList
      (followFlags h s c) (h.isBeeping (d.called (h.traced.draw d.machine.screen)).host.state) := by
  have hafter : h.isBeeping (d.called (h.traced.draw d.machine.screen)).host.state =
      h.isBeeping d.host.state := hapart.draw d.machine.screen d.host.state
  rw [hcalls, hafter, ← List.append_nil (followFlags h s c)]
  exact (switched_past hobeys hapart past).append (.idle (by simp [Call.switches]))

theorem switched_report (hobeys : h.BuzzerObeys) (hapart : h.BuzzerApart) (s : FrameSettings)
    (c : Console σ) : Switched (h.isBeeping c.host) (report h s c).calls (followFlags h s c)
      (h.isBeeping (report h s c).console.host) := by
  have hcourse := frame_course h.traced s c.traced
  have hkeys := updateKeys_apply h s c
  unfold report
  generalize frame h.traced s c.traced = result at hcourse
  cases hcourse with
  | @unread message peek =>
    have hpeek : (h.peek c.host).result = .error message := peek
    have hcalls : (c.traced.called h.traced.peek).host.calls.toList = [(.peek, some message)] :=
      Host.calls_of_error peek
    simp only [hpeek] at hkeys
    rw [followFlags, hkeys, ← hapart.peek c.host]
    change Switched _ (c.traced.called h.traced.peek).host.calls.toList [] _
    rw [hcalls]
    exact .idle (by simp [Call.switches])
  | @unflushed keys message peek flush =>
    have hpeek : (h.peek c.host).result = .ok keys := peek
    have hflush : (h.flush (h.peek c.host).state).result = .error message := flush
    have hhost : (c.traced.read h.traced s keys).host.state = (h.peek c.host).state :=
      congrArg Traced.state (host_read c.traced h.traced s keys)
    simp only [hpeek, hflush] at hkeys
    rw [followFlags, hkeys, ← hapart.peek c.host, ← hapart.flush, ← hhost]
    change Switched _ ((c.traced.read h.traced s keys).called h.traced.flush).host.calls.toList [] _
    rw [calls_unflushed peek flush]
    exact .idle (by simp [Call.switches])
  | unfollowed peek flush _ => exact switched_followed hobeys hapart peek flush
  | faulted past => exact switched_past hobeys hapart past
  | undrawn past draw => exact switched_drawn hobeys hapart past (Host.calls_of_error draw)
  | drawn past draw => exact switched_drawn hobeys hapart past (Host.calls_of_ok draw)

lemma switched_frames (hobeys : h.BuzzerObeys) (hapart : h.BuzzerApart) (s : FrameSettings)
    (c : Console σ) (n : Nat) : Switched (h.isBeeping c.host) (callsOfFrames h s c n)
      (flagsOfFrames h s c n) (h.isBeeping (afterFrames h s c n).host) := by
  induction n with
  | zero => exact .idle nofun
  | succ n ih =>
    rw [callsOfFrames_succ, flagsOfFrames_succ, afterFrames, afterFrame_eq_console_report]
    exact ih.append (switched_report hobeys hapart s _)

lemma Ending.host_console {limit : Option Nat} {n : Nat} {e : Outcome σ}
    (he : Ending h s limit c n e) :
    e.console.host = (afterFrames h s c (framesRun n e)).host := by
  cases he with
  | limited _ | quit _ _ => rfl
  | troubled _ _ fails =>
    simp only [framesRun, afterFrames, afterFrame, fails, Outcome.console]

lemma switched_loop (hobeys : h.BuzzerObeys) (hapart : h.BuzzerApart) {limit : Option Nat}
    {r : LoopReport σ} (hr : loopReport h s limit c = some r) :
    Switched (h.isBeeping c.host) r.calls
      (flagsOfFrames h s c (r.calls.countP (·.1 = .peek)) ++ [false])
      (h.isBeeping r.console.host) := by
  obtain ⟨n, e, -, hending, hcloses⟩ := closes_of_loopReport hr
  have hframes := switched_frames hobeys hapart s c (framesRun n e)
  rw [← hending.host_console] at hframes
  rw [hcloses.countP_peek, hcloses.calls, hcloses.console]
  exact hframes.append (.follow hobeys false e.console.host)

theorem switched_of_played (hobeys : h.BuzzerObeys) (hapart : h.BuzzerApart)
    {calls : List (Call × Option String)} {flags : List Bool} {d : Console σ}
    (hplayed : Played h s c calls flags d) :
    Switched (h.isBeeping c.host) calls flags (h.isBeeping d.host) := by
  induction hplayed with
  | nothing => exact .idle nofun
  | frame _ ih =>
    rw [afterFrame_eq_console_report]
    exact ih.append (switched_report hobeys hapart s _)
  | loop _ _ ran ih => exact ih.append (switched_loop hobeys hapart ran)

/-- What there is to say of a buzzer that is told to follow the sound timer. -/
structure BuzzerFollows (h : Host σ) (s : FrameSettings) : Prop where
  /-- Whatever fails, it is switched on and off by turns if it starts off. -/
  alternates : ∀ c calls flags d, h.isBeeping c.host = false → Played h s c calls flags d →
    Alternate false (switched calls) (h.isBeeping d.host)
  /-- If no switch fails, it is switched on as often as the flags rise. -/
  rises : ∀ c calls flags d, h.isBeeping c.host = false → Played h s c calls flags d →
    NoSwitchFails calls → calls.countP (·.1 = .beep) = risingEdges false flags
  /-- In a frame that gets past the cut it is as the timer is after the tick, and stays so. -/
  follows : ∀ c d, toFollow h s c = .ok () d → d.machine.timers = c.machine.timers.tick ∧
    h.isBeeping d.host = decide (0 < d.machine.timers.sound) ∧
    h.isBeeping (afterFrame h s c).host = decide (0 < d.machine.timers.sound)
  /-- A timer that is left at `left` by a frame of a loop, and that none of the next frames sets, keeps
  it on in all of them but the last. -/
  lasts : ∀ (limit : Option Nat) c i left,
    (afterFrames h s c i).machine.timers.sound.toNat = left →
    (∀ k < left, GoesOn h s limit c (i + k)) →
    (∀ k < left, KeepsSound h s (afterFrames h s c (i + k))) →
    ∀ k < left, ∃ d, toFollow h s (afterFrames h s c (i + k)) = .ok () d ∧
      h.isBeeping d.host = decide (k + 1 < left)

/-- A buzzer that obeys and that nothing else switches follows the sound timer. -/
theorem buzzer_follows_sound_timer (h : Host σ) (hobeys : h.BuzzerObeys) (hapart : h.BuzzerApart)
    (s : FrameSettings) : BuzzerFollows h s where
  alternates := by
    intro c calls flags d hoff hplayed
    have hswitched := switched_of_played hobeys hapart hplayed
    rw [hoff] at hswitched
    exact hswitched.alternate
  rises := by
    intro c calls flags d hoff hplayed hnone
    have hswitched := switched_of_played hobeys hapart hplayed
    rw [hoff] at hswitched
    exact hswitched.rises hnone
  follows := by
    intro c d hd
    have hbeeping := isBeeping_toFollow hobeys hd
    refine ⟨timers_toFollow hd, hbeeping, ?_⟩
    rw [isBeeping_afterFrame hapart hd]
    exact hbeeping
  lasts := by
    intro limit c i left hleft hgo hkeeps k hk
    exact isBeeping_while_left hobeys hleft hgo hkeeps hk

section Scripted
variable {α : Type} {call : Call} {act : Script → α × Script} {t : Script}

lemma state_perform_of_ok {a : α} (hr : (Script.perform call act t).result = .ok a) :
    (Script.perform call act t).state = (act t).2 := by
  unfold Script.perform at hr ⊢
  split at hr
  · cases hr
  · rfl

lemma beeping_perform_of_error {message : String}
    (hr : (Script.perform call act t).result = .error message) :
    (Script.perform call act t).state.beeping = t.beeping := by
  unfold Script.perform at hr ⊢
  split at hr
  · rfl
  · cases hr

lemma beeping_perform (hact : (act t).2.beeping = t.beeping) :
    (Script.perform call act t).state.beeping = t.beeping := by
  cases hr : (Script.perform call act t).result with
  | ok a => rw [state_perform_of_ok hr, hact]
  | error message => exact beeping_perform_of_error hr

theorem buzzerObeys_script : Script.host.BuzzerObeys where
  beep_ok _ hr := congrArg Script.beeping (state_perform_of_ok hr)
  beep_error _ _ hr := beeping_perform_of_error hr
  stop_ok _ hr := congrArg Script.beeping (state_perform_of_ok hr)
  stop_error _ _ hr := beeping_perform_of_error hr

theorem buzzerApart_script : Script.host.BuzzerApart where
  peek t := by
    have hread : (Script.readBatch t).2.beeping = t.beeping := by
      unfold Script.readBatch
      split <;> rfl
    exact beeping_perform hread
  flush _ := beeping_perform rfl
  draw _ _ := beeping_perform rfl

end Scripted

/-- The program sets the sound timer to three and then jumps on the spot. -/
def humming : Console Script :=
  start ((Machine.start ⟨fun _ => 0, 0⟩ {}).after [.load [0x60, 0x03, 0xf0, 0x18, 0x12, 0x04]]) {}

def twoSteps : FrameSettings := { cyclesPerFrame := 2 }

/-- A loop of two frames silences the buzzer in the middle of the sound, and the next frame takes it up
again. In a loop that goes on it is on in the two frames after the first and goes off in the third. -/
theorem buzzer_follows_sound_timer_humming :
    (∃ calls flags d, Played Script.host twoSteps humming calls flags d ∧
      switched calls = [.beep, .stop, .beep] ∧ flags = [false, true, false, true] ∧
      Alternate false (switched calls) true ∧
      calls.countP (·.1 = .beep) = risingEdges false flags) ∧
    ∀ k < 3, ∃ d, toFollow Script.host twoSteps (afterFrames Script.host twoSteps humming (1 + k)) =
        .ok () d ∧
      d.host.beeping = decide (k + 1 < 3) := by
  have facts : (∀ r ∈ loopReport Script.host twoSteps (some 2) humming,
        NoSwitchFails (r.calls ++ (report Script.host twoSteps r.console).calls) ∧
        switched (r.calls ++ (report Script.host twoSteps r.console).calls) =
          [.beep, .stop, .beep] ∧
        flagsOfFrames Script.host twoSteps humming (r.calls.countP (·.1 = .peek)) =
          [false, true] ∧
        followFlags Script.host twoSteps r.console = [true] ∧
        Script.host.isBeeping (afterFrame Script.host twoSteps r.console).host = true) ∧
      (afterFrames Script.host twoSteps humming 1).machine.timers.sound.toNat = 3 ∧
      ∀ k < 3,
        Script.host.quitRequested (afterFrames Script.host twoSteps humming (1 + k)).host = false ∧
        (report Script.host twoSteps (afterFrames Script.host twoSteps humming (1 + k))).result =
          .ok () ∧
        KeepsSound Script.host twoSteps (afterFrames Script.host twoSteps humming (1 + k)) := by
    decide +kernel
  obtain ⟨hrun, hleft, hframes⟩ := facts
  have hfollows :=
    buzzer_follows_sound_timer Script.host buzzerObeys_script buzzerApart_script twoSteps
  constructor
  · have hsome : (loopReport Script.host twoSteps (some 2) humming).isSome := by
      rw [loopReport, Option.isSome_map]
      exact loop_isSome _ _ (by decide) _
    obtain ⟨r, hr⟩ := Option.isSome_iff_exists.1 hsome
    obtain ⟨hnone, hswitched, hflags, hflag, hbeeping⟩ := hrun r hr
    have hloop : Played Script.host twoSteps humming _ _ _ := .loop (some 2) .nothing hr
    rw [hflags] at hloop
    have hplayed := hloop.frame
    rw [hflag] at hplayed
    refine ⟨_, _, _, hplayed, hswitched, rfl, ?_, hfollows.rises _ _ _ _ rfl hplayed hnone⟩
    rw [← hbeeping]
    exact hfollows.alternates _ _ _ _ rfl hplayed
  · have hgo (k : Nat) (hk : k < 3) : GoesOn Script.host twoSteps none humming (1 + k) := by
      obtain ⟨hquit, hresult, -⟩ := hframes k hk
      refine goesOn_iff_report.2 ⟨?_, hquit, hresult⟩
      intro m hm
      cases hm
    exact hfollows.lasts none humming 1 3 hleft hgo fun k hk => (hframes k hk).2.2

end Console

end ChipEight
