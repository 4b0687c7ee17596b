import ChipEight.Proofs.HostMaps

/-! Keeping the list of a host's calls. The list is never read, so to forget it is a map of hosts, and what
a console does at a host that keeps it is what it does at the host itself: `Erases` says so of an action.
The list grows at its end, by one entry a call. -/
namespace ChipEight

namespace Host

variable {σ α : Type}

def switching (sounding beeping : Bool) : List Call :=
  match sounding, beeping with
  | true, false => [.beep]
  | false, true => [.stop]
  | _, _ => []

lemma of_mem_switching {sounding beeping : Bool} {call : Call}
    (h : call ∈ switching sounding beeping) : call = .beep ∨ call = .stop := by
  cases sounding <;> cases beeping <;> simp_all [switching]

lemma calls_of_ok {call : Call} {act : σ → Answer σ α} {t : Traced σ} {a : α}
    (h : (traceCall call act t).result = .ok a) :
    (traceCall call act t).state.calls.toList = t.calls.toList ++ [(call, none)] := by
  have hact : (act t.state).result = .ok a := h
  simp [traceCall, hact]

lemma calls_of_error {call : Call} {act : σ → Answer σ α} {t : Traced σ} {message : String}
    (h : (traceCall call act t).result = .error message) :
    (traceCall call act t).state.calls.toList = t.calls.toList ++ [(call, some message)] := by
  have hact : (act t.state).result = .error message := h
  simp [traceCall, hact]

variable {h : Host σ} {sounding : Bool} {t : Traced σ}

/-- What `follow` does at a host that keeps its calls. -/
inductive Follows (h : Host σ) (sounding : Bool) (t : Traced σ) : Prop
  | beep (switch : switching sounding (h.isBeeping t.state) = [.beep])
      (traced : h.traced.follow sounding t = traceCall .beep h.beep t)
      (plain : h.follow sounding t.state = h.beep t.state)
  | stop (switch : switching sounding (h.isBeeping t.state) = [.stop])
      (traced : h.traced.follow sounding t = traceCall .stop h.stop t)
      (plain : h.follow sounding t.state = h.stop t.state)
  | idle (switch : switching sounding (h.isBeeping t.state) = [])
      (traced : h.traced.follow sounding t = { result := .ok (), state := t })
      (plain : h.follow sounding t.state = { result := .ok (), state := t.state })

lemma follows (h : Host σ) (sounding : Bool) (t : Traced σ) : Follows h sounding t := by
  cases hb : h.isBeeping t.state with
  | true =>
    cases sounding with
    | true =>
      exact .idle (by rw [hb]; rfl) (follow_of_isBeeping_eq h.traced hb)
        (follow_of_isBeeping_eq h hb)
    | false => exact .stop (by rw [hb]; rfl) (follow_false h.traced hb) (follow_false h hb)
  | false =>
    cases sounding with
    | true => exact .beep (by rw [hb]; rfl) (follow_true h.traced hb) (follow_true h hb)
    | false =>
      exact .idle (by rw [hb]; rfl) (follow_of_isBeeping_eq h.traced hb)
        (follow_of_isBeeping_eq h hb)

lemma calls_follow_ok (hr : (h.traced.follow sounding t).result = .ok ()) :
    (h.traced.follow sounding t).state.calls.toList =
      t.calls.toList ++ (switching sounding (h.isBeeping t.state)).map (·, none) := by
  cases follows h sounding t with
  | beep switch traced _ | stop switch traced _ =>
    rw [traced] at hr ⊢
    rw [switch]
    exact calls_of_ok hr
  | idle switch traced _ =>
    rw [traced, switch]
    exact (List.append_nil _).symm

lemma calls_follow_error {message : String}
    (hr : (h.traced.follow sounding t).result = .error message) :
    ∃ call, switching sounding (h.isBeeping t.state) = [call] ∧
      (h.traced.follow sounding t).state.calls.toList =
        t.calls.toList ++ [(call, some message)] := by
  cases follows h sounding t with
  | beep switch traced _ | stop switch traced _ =>
    rw [traced] at hr ⊢
    exact ⟨_, switch, calls_of_error hr⟩
  | idle _ traced _ =>
    rw [traced] at hr
    nomatch hr

/-- The calls that `follow` makes, each with the text it fails with. -/
def followCalls (h : Host σ) (sounding : Bool) (host : σ) : List (Call × Option String) :=
  (switching sounding (h.isBeeping host)).map fun call =>
    (call, match (h.follow sounding host).result with | .ok () => none | .error message => some message)

lemma maps_traced (h : Host σ) : Maps Traced.state h.traced h where
  peek _ := rfl
  flush _ := rfl
  quitRequested _ := rfl
  follow sounding t := by
    cases h.follows sounding t with
    | beep _ traced plain | stop _ traced plain =>
      rw [traced, plain]
      rfl
    | idle _ traced plain =>
      rw [traced, plain]
      rfl
  draw _ _ := rfl

lemma follow_eq_map (h : Host σ) (sounding : Bool) (t : Traced σ) :
    h.follow sounding t.state = (h.traced.follow sounding t).map Traced.state :=
  h.maps_traced.follow sounding t

theorem calls_follow (h : Host σ) (sounding : Bool) (t : Traced σ) :
    (h.traced.follow sounding t).state.calls.toList =
      t.calls.toList ++ h.followCalls sounding t.state := by
  have hresult := congrArg Answer.result (h.follow_eq_map sounding t)
  cases hr : (h.traced.follow sounding t).result with
  | ok u =>
    simp only [Answer.map, hr] at hresult
    simp only [calls_follow_ok hr, followCalls, hresult]
  | error message =>
    simp only [Answer.map, hr] at hresult
    obtain ⟨call, hswitch, hcalls⟩ := calls_follow_error hr
    simp only [hcalls, followCalls, hresult, hswitch, List.map_cons, List.map_nil]

end Host

namespace Console

variable {σ α : Type}

/-- The console at a host that keeps its calls, before any of them. -/
def traced (c : Console σ) : Console (Traced σ) := ⟨c.machine, c.holds, ⟨c.host, #[]⟩, c.log⟩

def erased (c : Console (Traced σ)) : Console σ := ⟨c.machine, c.holds, c.host.state, c.log⟩

lemma erased_traced (c : Console σ) : c.traced.erased = c := rfl

def erasedResult :
    EStateM.Result Trouble (Console (Traced σ)) α → EStateM.Result Trouble (Console σ) α
  | .ok a c => .ok a c.erased
  | .error t c => .error t c.erased

/-- The second action is the first without the list of calls. -/
def Erases (x : Action (Traced σ) α) (y : Action σ α) : Prop :=
  ∀ c, y c.erased = erasedResult (x c)

namespace Erases

lemma of_maps {x : Action (Traced σ) α} {y : Action σ α} (h : Maps Traced.state x y) :
    Erases x y := by
  intro c
  have hc : y c.erased = mapResult Traced.state (x c) := h c
  rw [hc]
  cases x c <;> rfl

theorem updateKeys (h : Host σ) (s : FrameSettings) :
    Erases (updateKeys h.traced s) (updateKeys h s) :=
  of_maps (Maps.updateKeys h.maps_traced s)

theorem frame (h : Host σ) (s : FrameSettings) : Erases (frame h.traced s) (frame h s) :=
  of_maps (Maps.frame h.maps_traced s)

end Erases

end Console

end ChipEight
