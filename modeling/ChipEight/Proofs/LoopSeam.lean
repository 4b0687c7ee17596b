import ChipEight.Proofs.HiddenBuzzer

/-! A loop cut in two. A loop that runs up to its limit and another one after it make one loop with both
limits together, at a host that hides its buzzer: the first loop switches the buzzer off at the seam, the
frame behind the seam switches it on again, and nothing else can tell. The frames of the second loop are
those of the long one, counted from the seam, and so is its ending. -/
namespace ChipEight.Console

variable {σ ρ : Type} {view : σ → ρ} {h : Host σ} {s : FrameSettings} {c d : Console σ}
  {a b k n : Nat}

lemma afterFrames_add (h : Host σ) (s : FrameSettings) (c : Console σ) (a k : Nat) :
    afterFrames h s c (a + k) = afterFrames h s (afterFrames h s c a) k := by
  induction k with
  | zero => rfl
  | succ k ih =>
    rw [← Nat.add_assoc, afterFrames, afterFrames, ih]

lemma callsOfFrames_add (h : Host σ) (s : FrameSettings) (c : Console σ) (a k : Nat) :
    callsOfFrames h s c (a + k) =
      callsOfFrames h s c a ++ callsOfFrames h s (afterFrames h s c a) k := by
  induction k with
  | zero => exact (List.append_nil _).symm
  | succ k ih =>
    rw [← Nat.add_assoc, callsOfFrames_succ, callsOfFrames_succ, ih, afterFrames_add,
      List.append_assoc]

section Unique
variable {limit : Option Nat} {m : Nat} {e e' : Outcome σ}

lemma Ending.not_goesOn (he : Ending h s limit c n e) : ¬ GoesOn h s limit c n := by
  intro hn
  have hround := he.round
  rw [hn.round] at hround
  cases hround

lemma ending_unique (hn : ∀ k < n, GoesOn h s limit c k) (he : Ending h s limit c n e)
    (hm : ∀ k < m, GoesOn h s limit c k) (he' : Ending h s limit c m e') : n = m ∧ e = e' := by
  obtain hlt | rfl | hlt := Nat.lt_trichotomy n m
  · exact absurd (hm n hlt) he.not_goesOn
  · have hround := he.round
    rw [he'.round] at hround
    cases hround
    exact ⟨rfl, rfl⟩
  · exact absurd (hn m hlt) he'.not_goesOn

end Unique

lemma limited_of_result {r : LoopReport σ} (hr : loopReport h s (some a) c = some r)
    (hstop : ∀ t, (h.follow false t).result = .ok ()) (hresult : r.result = .ok a) :
    (∀ k < a, GoesOn h s (some a) c k) ∧
      Closes h (.ok a (afterFrames h s c a)) (callsOfFrames h s c a) r := by
  obtain ⟨n, e, hgood, he, hcloses⟩ := closes_of_loopReport hr
  have hclosed := hcloses.result
  rw [hstop, hresult] at hclosed
  cases he with
  | limited reached =>
    cases reached
    exact ⟨hgood, hcloses⟩
  | quit below _ =>
    cases hclosed
    exact absurd (below a rfl) (Nat.lt_irrefl a)
  | troubled _ _ _ => cases hclosed

/-- What comes before the seam is as well the beginning of the long loop. -/
lemma GoesOn.lengthen (hk : GoesOn h s (some a) c k) (b : Nat) : GoesOn h s (some (a + b)) c k := by
  refine ⟨?_, hk.unasked, hk.frame⟩
  intro m hm
  cases hm
  exact Nat.lt_add_right b (hk.below a rfl)

lemma GoesOn.shift (hh : h.HidesBuzzer view) (hd : (afterFrames h s c a).SeenAlike view d)
    (hk : GoesOn h s (some b) d k) : GoesOn h s (some (a + b)) c (a + k) := by
  have halike : (afterFrames h s c (a + k)).SeenAlike view (afterFrames h s d k) := by
    rw [afterFrames_add]
    exact afterFrames_seenAlike hh hd k
  obtain ⟨hbelow, hunasked, hresult⟩ := goesOn_iff_report.1 hk
  refine goesOn_iff_report.2 ⟨?_, ?_, ?_⟩
  · intro m hm
    cases hm
    exact Nat.add_lt_add_left (hbelow b rfl) a
  · rw [hh.quitRequested _ _ halike.host]
    exact hunasked
  · rw [(report_seenAlike hh s halike).result]
    exact hresult

/-- The ending behind the seam as one of the long loop. -/
structure Shifted (view : σ → ρ) (a n : Nat) (e e' : Outcome σ) : Prop where
  result : e'.result = e.result.map (a + ·)
  console : e'.console.SeenAlike view e.console
  frames : framesRun (a + n) e' = a + framesRun n e

lemma Ending.shift (hh : h.HidesBuzzer view) (hd : (afterFrames h s c a).SeenAlike view d)
    {e : Outcome σ} (he : Ending h s (some b) d n e) :
    ∃ e', Ending h s (some (a + b)) c (a + n) e' ∧ Shifted view a n e e' := by
  have halike : (afterFrames h s c (a + n)).SeenAlike view (afterFrames h s d n) := by
    rw [afterFrames_add]
    exact afterFrames_seenAlike hh hd n
  have hquit := hh.quitRequested _ _ halike.host
  have hbelow' : (∀ m, some b = some m → n < m) → ∀ m, some (a + b) = some m → a + n < m := by
    intro hbelow m hm
    cases hm
    exact Nat.add_lt_add_left (hbelow b rfl) a
  cases he with
  | limited reached =>
    cases reached
    exact ⟨_, .limited rfl, rfl, halike, rfl⟩
  | quit below asked =>
    exact ⟨_, .quit (hbelow' below) (hquit.trans asked), rfl,
      ⟨halike.machine, halike.holds, halike.host⟩, rfl⟩
  | @troubled t e below unasked fails =>
    have hends := frame_seenAlike hh s _ _ halike
    rw [fails] at hends
    generalize hf : frame h s (afterFrames h s c (a + n)) = result at hends
    cases hends with
    | error _ alike =>
      exact ⟨_, .troubled (hbelow' below) (hquit.trans unasked) hf, rfl, alike, rfl⟩

/-- Two loops one after the other, and one loop in their place. -/
structure Composes (view : σ → ρ) (h : Host σ) (a : Nat) (first second whole : LoopReport σ) :
    Prop where
  ok_iff : ∀ m, second.result = .ok m ↔ whole.result = .ok (a + m)
  error_iff : ∀ t, second.result = .error t ↔ whole.result = .error t
  machine : whole.console.machine = second.console.machine
  holds : whole.console.holds = second.console.holds
  host : view whole.console.host = view second.console.host
  calls : withoutSwitches whole.calls = withoutSwitches first.calls ++ withoutSwitches second.calls
  drawn : whole.calls.countP (·.1 = .draw) =
    first.calls.countP (·.1 = .draw) + second.calls.countP (·.1 = .draw)
  silent : h.StopSilences →
    h.isBeeping second.console.host = false ∧ h.isBeeping whole.console.host = false

section Closed
variable {e : Outcome σ} {calls : List (Call × Option String)} {r : LoopReport σ}

lemma Closes.result_eq (hr : Closes h e calls r) (hh : h.HidesBuzzer view) :
    r.result = e.result := by
  rw [hr.result, (hh.follow false e.console.host).1]

lemma Closes.withoutSwitches_eq (hr : Closes h e calls r) :
    withoutSwitches r.calls = withoutSwitches calls := by
  rw [hr.calls, withoutSwitches_append, Host.withoutSwitches_followCalls, List.append_nil]

lemma Closes.seenAlike (hr : Closes h e calls r) (hh : h.HidesBuzzer view) :
    e.console.SeenAlike view r.console := by
  rw [hr.console]
  exact ⟨rfl, rfl, (hh.follow false e.console.host).2.symm⟩

lemma Closes.isBeeping_eq (hr : Closes h e calls r) (hh : h.HidesBuzzer view)
    (hstop : h.StopSilences) :
    h.isBeeping r.console.host = false := by
  rw [hr.console]
  change h.isBeeping (h.follow false e.console.host).state = false
  cases hb : h.isBeeping e.console.host with
  | true =>
    rw [h.follow_false hb]
    exact hstop _ (hh.stop _).1
  | false =>
    rw [h.follow_of_isBeeping_eq hb]
    exact hb

end Closed

lemma countP_draw_withoutSwitches (calls : List (Call × Option String)) :
    (withoutSwitches calls).countP (·.1 = .draw) = calls.countP (·.1 = .draw) := by
  rw [withoutSwitches, List.countP_filter]
  refine List.countP_congr fun call _ => ?_
  rcases call with ⟨kind, failure⟩
  cases kind <;> simp [Call.switches]

lemma composes_of_closes (hh : h.HidesBuzzer view) {first second whole : LoopReport σ}
    {e e' : Outcome σ} (hshift : Shifted view a n e e')
    (hfirst : Closes h (.ok a (afterFrames h s c a)) (callsOfFrames h s c a) first)
    (hsecond : Closes h e (callsOfFrames h s first.console (framesRun n e)) second)
    (hwhole : Closes h e' (callsOfFrames h s c (framesRun (a + n) e')) whole) :
    Composes view h a first second whole := by
  have hseam : (afterFrames h s c a).SeenAlike view first.console := hfirst.seenAlike hh
  have hresult : whole.result = second.result.map (a + ·) := by
    rw [hwhole.result_eq hh, hsecond.result_eq hh, hshift.result]
  have hconsole : whole.console.SeenAlike view second.console :=
    (hwhole.seenAlike hh).symm.trans (hshift.console.trans (hsecond.seenAlike hh))
  have hcalls : withoutSwitches whole.calls =
      withoutSwitches first.calls ++ withoutSwitches second.calls := by
    rw [hwhole.withoutSwitches_eq, hfirst.withoutSwitches_eq, hsecond.withoutSwitches_eq,
      hshift.frames, callsOfFrames_add, withoutSwitches_append,
      withoutSwitches_callsOfFrames hh hseam]
  refine ⟨?_, ?_, hconsole.machine, hconsole.holds, hconsole.host, hcalls, ?_, ?_⟩
  · intro m
    rw [hresult]
    cases second.result <;> simp [Except.map]
  · intro t
    rw [hresult, map_eq_error_iff]
  · rw [← countP_draw_withoutSwitches, hcalls, List.countP_append, countP_draw_withoutSwitches,
      countP_draw_withoutSwitches]
  · exact fun hstop => ⟨hsecond.isBeeping_eq hh hstop, hwhole.isBeeping_eq hh hstop⟩

/-- A loop that answers with its limit, and another loop after it, come to the same as one loop with both
limits together, but for the calls that switch the buzzer off at the seam and on again. -/
theorem loops_compose (hh : h.HidesBuzzer view) (s : FrameSettings) (c : Console σ)
    (hab : a + b < UInt64.size) {first : LoopReport σ}
    (hfirst : loopReport h s (some a) c = some first) (hok : first.result = .ok a) :
    ∃ second whole, loopReport h s (some b) first.console = some second ∧
      loopReport h s (some (a + b)) c = some whole ∧ Composes view h a first second whole := by
  obtain ⟨hgood, hcloses⟩ := limited_of_result hfirst (fun t => (hh.follow false t).1) hok
  have hseam : (afterFrames h s c a).SeenAlike view first.console := hcloses.seenAlike hh
  have hsome (limit : Nat) (hlimit : limit < UInt64.size) (d : Console σ) :
      (loopReport h s (some limit) d).isSome := by
    rw [loopReport, Option.isSome_map]
    exact loop_isSome h.traced s hlimit d.traced
  obtain ⟨second, hsecond⟩ := Option.isSome_iff_exists.1 (hsome b (by omega) first.console)
  obtain ⟨whole, hwhole⟩ := Option.isSome_iff_exists.1 (hsome (a + b) hab c)
  obtain ⟨n, e, hrest, he, hclosesSecond⟩ := closes_of_loopReport hsecond
  obtain ⟨m, e₁, hall, he₁, hclosesWhole⟩ := closes_of_loopReport hwhole
  obtain ⟨e', he', hshift⟩ := he.shift hh hseam
  have hlong : ∀ k < a + n, GoesOn h s (some (a + b)) c k := by
    intro k hk
    obtain hlt | hge := Nat.lt_or_ge k a
    · exact (hgood k hlt).lengthen b
    · obtain ⟨j, rfl⟩ := Nat.exists_eq_add_of_le hge
      exact (hrest j (by omega)).shift hh hseam
  obtain ⟨rfl, rfl⟩ := ending_unique hlong he' hall he₁
  exact ⟨second, whole, hsecond, hwhole, composes_of_closes hh hshift hcloses hclosesSecond
    hclosesWhole⟩

/-- The humming program at a host with a buzzer of its own. -/
def hummingApart : Console (Script × Bool) :=
  start ((Machine.start ⟨fun _ => 0, 0⟩ {}).after [.load [0x60, 0x03, 0xf0, 0x18, 0x12, 0x04]])
    ({}, false)

/-- The seam is in the middle of the sound. -/
theorem loops_compose_humming : ∃ first second whole,
    loopReport Script.host.withBuzzer twoSteps (some 2) hummingApart = some first ∧
      loopReport Script.host.withBuzzer twoSteps (some 2) first.console = some second ∧
      loopReport Script.host.withBuzzer twoSteps (some (2 + 2)) hummingApart = some whole ∧
      Composes Prod.fst Script.host.withBuzzer 2 first second whole ∧
      switched first.calls ++ switched second.calls = [.beep, .stop, .beep, .stop] ∧
      switched whole.calls = [.beep, .stop] := by
  have facts : (loopReport Script.host.withBuzzer twoSteps (some 2) hummingApart).map (·.result) =
        some (.ok 2) ∧
      (∀ r ∈ loopReport Script.host.withBuzzer twoSteps (some 2) hummingApart,
        ∀ q ∈ loopReport Script.host.withBuzzer twoSteps (some 2) r.console,
          switched r.calls ++ switched q.calls = [.beep, .stop, .beep, .stop]) ∧
      ∀ r ∈ loopReport Script.host.withBuzzer twoSteps (some (2 + 2)) hummingApart,
        switched r.calls = [.beep, .stop] := by
    decide +kernel
  obtain ⟨hresult, hparts, hwhole⟩ := facts
  obtain ⟨first, hfirst, hok⟩ := Option.map_eq_some_iff.1 hresult
  obtain ⟨second, whole, hsecond, hlong, hcomposes⟩ :=
    loops_compose (b := 2) (Host.hidesBuzzer_withBuzzer Script.host) twoSteps hummingApart
      (by decide) hfirst hok
  exact ⟨first, second, whole, hfirst, hsecond, hlong, hcomposes,
    hparts first hfirst second hsecond, hwhole whole hlong⟩

end ChipEight.Console
