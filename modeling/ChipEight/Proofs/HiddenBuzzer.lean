import ChipEight.Proofs.Buzzer

/-! A buzzer that cannot be told from anything else. A view of a host's state hides the buzzer if the
keys, the wish to quit and the screen depend on what is seen alone, and switching the buzzer always goes
well and changes nothing that is seen. Consoles that look alike through such a view then stay alike in
any number of frames. The calls are alike as well, once those that
switch the buzzer are left out, for a host that keeps its calls hides the buzzer behind the others. -/
namespace ChipEight

variable {σ ρ α : Type}

/-- Answers that are the same as far as `view` goes. -/
structure Answer.SeenAlike (view : σ → ρ) (a b : Answer σ α) : Prop where
  result : a.result = b.result
  state : view a.state = view b.state

structure Host.HidesBuzzer (view : σ → ρ) (h : Host σ) : Prop where
  peek : ∀ s t, view s = view t → (h.peek s).SeenAlike view (h.peek t)
  flush : ∀ s t, view s = view t → (h.flush s).SeenAlike view (h.flush t)
  quitRequested : ∀ s t, view s = view t → h.quitRequested s = h.quitRequested t
  draw : ∀ screen s t, view s = view t → (h.draw screen s).SeenAlike view (h.draw screen t)
  beep : ∀ s, (h.beep s).result = .ok () ∧ view (h.beep s).state = view s
  stop : ∀ s, (h.stop s).result = .ok () ∧ view (h.stop s).state = view s

/-- The calls that are not for the buzzer. -/
def withoutSwitches (calls : List (Call × Option String)) : List (Call × Option String) :=
  calls.filter fun call => !call.1.switches

lemma withoutSwitches_append (calls calls' : List (Call × Option String)) :
    withoutSwitches (calls ++ calls') = withoutSwitches calls ++ withoutSwitches calls' :=
  List.filter_append calls calls'

namespace Host

variable {view : σ → ρ} {h : Host σ}

lemma HidesBuzzer.follow (hh : h.HidesBuzzer view) (sounding : Bool) (s : σ) :
    (h.follow sounding s).result = .ok () ∧ view (h.follow sounding s).state = view s := by
  cases hb : h.isBeeping s with
  | true =>
    cases sounding with
    | true =>
      rw [h.follow_of_isBeeping_eq hb]
      exact ⟨rfl, rfl⟩
    | false =>
      rw [h.follow_false hb]
      exact hh.stop s
  | false =>
    cases sounding with
    | true =>
      rw [h.follow_true hb]
      exact hh.beep s
    | false =>
      rw [h.follow_of_isBeeping_eq hb]
      exact ⟨rfl, rfl⟩

lemma HidesBuzzer.follow_seenAlike (hh : h.HidesBuzzer view) (sounding : Bool) {s t : σ}
    (hst : view s = view t) : (h.follow sounding s).SeenAlike view (h.follow sounding t) := by
  obtain ⟨hs, hs'⟩ := hh.follow sounding s
  obtain ⟨ht, ht'⟩ := hh.follow sounding t
  exact ⟨hs.trans ht.symm, hs'.trans (hst.trans ht'.symm)⟩

lemma withoutSwitches_followCalls (h : Host σ) (sounding : Bool) (s : σ) :
    withoutSwitches (h.followCalls sounding s) = [] := by
  rw [withoutSwitches, List.filter_eq_nil_iff]
  intro call hmem
  obtain ⟨switch, hswitch, rfl⟩ := List.mem_map.1 hmem
  obtain rfl | rfl := of_mem_switching hswitch
  · exact Bool.false_ne_true
  · exact Bool.false_ne_true

/-- A view of a host that keeps its calls: what is seen of the host, and the calls that are seen. -/
def viewCalls (view : σ → ρ) (t : Traced σ) : ρ × List (Call × Option String) :=
  (view t.state, withoutSwitches t.calls.toList)

lemma viewCalls_eq_iff {t u : Traced σ} : viewCalls view t = viewCalls view u ↔
    view t.state = view u.state ∧
      withoutSwitches t.calls.toList = withoutSwitches u.calls.toList :=
  Prod.ext_iff

lemma traceCall_seenAlike {call : Call} {act act' : σ → Answer σ α} {t u : Traced σ}
    (htu : viewCalls view t = viewCalls view u)
    (hact : (act t.state).SeenAlike view (act' u.state)) :
    (traceCall call act t).SeenAlike (viewCalls view) (traceCall call act' u) := by
  obtain ⟨-, hcalls⟩ := viewCalls_eq_iff.1 htu
  refine ⟨hact.result, viewCalls_eq_iff.2 ⟨hact.state, ?_⟩⟩
  simp only [traceCall, Array.toList_push, withoutSwitches_append, hcalls, hact.result]

lemma viewCalls_traceCall {call : Call} (hcall : call.switches = true) {act : σ → Answer σ α}
    {t : Traced σ} (hact : view (act t.state).state = view t.state) :
    viewCalls view (traceCall call act t).state = viewCalls view t := by
  refine viewCalls_eq_iff.2 ⟨hact, ?_⟩
  simp only [traceCall, Array.toList_push, withoutSwitches_append]
  simp [withoutSwitches, hcall]

theorem HidesBuzzer.traced (hh : h.HidesBuzzer view) : h.traced.HidesBuzzer (viewCalls view) where
  peek _ _ htu := traceCall_seenAlike htu (hh.peek _ _ (viewCalls_eq_iff.1 htu).1)
  flush _ _ htu := traceCall_seenAlike htu (hh.flush _ _ (viewCalls_eq_iff.1 htu).1)
  quitRequested _ _ htu := hh.quitRequested _ _ (viewCalls_eq_iff.1 htu).1
  draw screen _ _ htu := traceCall_seenAlike htu (hh.draw screen _ _ (viewCalls_eq_iff.1 htu).1)
  beep t := ⟨(hh.beep t.state).1, viewCalls_traceCall rfl (hh.beep t.state).2⟩
  stop t := ⟨(hh.stop t.state).1, viewCalls_traceCall rfl (hh.stop t.state).2⟩

/-- A host with a buzzer of its own beside it, which does as it is told. -/
def withBuzzer (h : Host σ) : Host (σ × Bool) where
  peek s := (h.peek s.1).map (·, s.2)
  flush s := (h.flush s.1).map (·, s.2)
  quitRequested s := h.quitRequested s.1
  beep s := { result := .ok (), state := (s.1, true) }
  stop s := { result := .ok (), state := (s.1, false) }
  isBeeping s := s.2
  draw screen s := (h.draw screen s.1).map (·, s.2)

lemma hidesBuzzer_withBuzzer (h : Host σ) : h.withBuzzer.HidesBuzzer Prod.fst where
  peek _ _ hst := ⟨congrArg (fun x => (h.peek x).result) hst,
    congrArg (fun x => (h.peek x).state) hst⟩
  flush _ _ hst := ⟨congrArg (fun x => (h.flush x).result) hst,
    congrArg (fun x => (h.flush x).state) hst⟩
  quitRequested _ _ hst := congrArg h.quitRequested hst
  draw screen _ _ hst := ⟨congrArg (fun x => (h.draw screen x).result) hst,
    congrArg (fun x => (h.draw screen x).state) hst⟩
  beep _ := ⟨rfl, rfl⟩
  stop _ := ⟨rfl, rfl⟩

end Host

namespace Console

/-- Consoles that are the same but for their logs and for what `view` does not show of their hosts. -/
structure SeenAlike (view : σ → ρ) (c d : Console σ) : Prop where
  machine : c.machine = d.machine
  holds : c.holds = d.holds
  host : view c.host = view d.host

variable {view : σ → ρ} {h : Host σ}

lemma SeenAlike.trans {c d e : Console σ} (h : c.SeenAlike view d) (h' : d.SeenAlike view e) :
    c.SeenAlike view e :=
  ⟨h.machine.trans h'.machine, h.holds.trans h'.holds, h.host.trans h'.host⟩

lemma SeenAlike.symm {c d : Console σ} (h : c.SeenAlike view d) : d.SeenAlike view c :=
  ⟨h.machine.symm, h.holds.symm, h.host.symm⟩

lemma keptInside_seenAlike (view : σ → ρ) : KeptInside (SeenAlike view) where
  machine hcd := hcd.machine
  stepped hcd := ⟨congrArg (·.step.machine) hcd.machine, hcd.holds, hcd.host⟩
  ticked hcd := ⟨congrArg Machine.tick hcd.machine, hcd.holds, hcd.host⟩
  notePress := by
    intro c d hcd hold key
    unfold notePress
    split
    · exact ⟨hcd.machine, congrArg (·.set key.toNat hold) hcd.holds, hcd.host⟩
    · exact ⟨hcd.machine, hcd.holds, hcd.host⟩
  pressHeld := by
    intro c d hcd
    unfold pressHeld
    rw [hcd.machine, hcd.holds]
    exact ⟨rfl, rfl, hcd.host⟩

lemma lockstep_ask {call : σ → Answer σ α}
    (hcall : ∀ s t, view s = view t → (call s).SeenAlike view (call t)) :
    Lockstep (SeenAlike view) (ask call) (ask call) := by
  intro c d hcd
  have hanswer := hcall c.host d.host hcd.host
  cases hr : (call c.host).result with
  | ok a =>
    rw [ask_of_ok hr, ask_of_ok (hanswer.result.symm.trans hr)]
    exact .ok a ⟨hcd.machine, hcd.holds, hanswer.state⟩
  | error message =>
    rw [ask_of_error hr, ask_of_error (hanswer.result.symm.trans hr)]
    exact .error _ ⟨hcd.machine, hcd.holds, hanswer.state⟩

lemma keptByCalls_seenAlike (hh : h.HidesBuzzer view) : KeptByCalls (SeenAlike view) h h where
  peek := lockstep_ask hh.peek
  flush := lockstep_ask hh.flush
  follow sounding := lockstep_ask fun _ _ => hh.follow_seenAlike sounding
  draw screen := lockstep_ask (hh.draw screen)

theorem frame_seenAlike (hh : h.HidesBuzzer view) (s : FrameSettings) :
    Lockstep (SeenAlike view) (frame h s) (frame h s) :=
  .frame (keptInside_seenAlike view) (keptByCalls_seenAlike hh) s

/-- Reports of frames that look alike, calls included. -/
structure FrameReport.SeenAlike (view : σ → ρ) (r q : FrameReport σ) : Prop where
  result : r.result = q.result
  calls : withoutSwitches r.calls = withoutSwitches q.calls
  console : r.console.SeenAlike view q.console

variable {s : FrameSettings} {c d : Console σ}

theorem report_seenAlike (hh : h.HidesBuzzer view) (s : FrameSettings)
    (hcd : c.SeenAlike view d) : (report h s c).SeenAlike view (report h s d) := by
  have htraced : c.traced.SeenAlike (Host.viewCalls view) d.traced :=
    ⟨hcd.machine, hcd.holds, Host.viewCalls_eq_iff.2 ⟨hcd.host, rfl⟩⟩
  have hends := frame_seenAlike hh.traced s c.traced d.traced htraced
  unfold report
  generalize frame h.traced s c.traced = result at hends
  generalize frame h.traced s d.traced = result' at hends
  cases hends with
  | ok _ alike | error _ alike =>
    obtain ⟨hstate, hcalls⟩ := Host.viewCalls_eq_iff.1 alike.host
    exact ⟨rfl, hcalls, alike.machine, alike.holds, hstate⟩

theorem afterFrames_seenAlike (hh : h.HidesBuzzer view) (hcd : c.SeenAlike view d) (n : Nat) :
    (afterFrames h s c n).SeenAlike view (afterFrames h s d n) := by
  induction n with
  | zero => exact hcd
  | succ n ih =>
    rw [afterFrames, afterFrames, afterFrame_eq_console_report, afterFrame_eq_console_report]
    exact (report_seenAlike hh s ih).console

theorem withoutSwitches_callsOfFrames (hh : h.HidesBuzzer view) (hcd : c.SeenAlike view d)
    (n : Nat) : withoutSwitches (callsOfFrames h s c n) =
      withoutSwitches (callsOfFrames h s d n) := by
  induction n with
  | zero => rfl
  | succ n ih =>
    rw [callsOfFrames_succ, callsOfFrames_succ, withoutSwitches_append, withoutSwitches_append, ih,
      (report_seenAlike hh s (afterFrames_seenAlike hh hcd n)).calls]

end Console

end ChipEight
