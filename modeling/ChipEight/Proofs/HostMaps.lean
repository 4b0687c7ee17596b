import ChipEight.FrameLoop
import ChipEight.Proofs.Lockstep

/-! Hosts that answer alike. A map of states takes one host to another if a call at the mapped state gives
the same answer but for the mapped state; to have the buzzer follow counts as one call. What a console
does at the first host it then does at the second, from the mapped state to the mapped state: `Maps` says
so of an action. It is to keep the relation of a console to its image, and holds of frames and loops. -/
namespace ChipEight

variable {σ τ α : Type}

def Answer.map (φ : σ → τ) (a : Answer σ α) : Answer τ α := ⟨a.result, φ a.state, a.log⟩

structure Host.Maps (φ : σ → τ) (h : Host σ) (h' : Host τ) : Prop where
  peek : ∀ s, h'.peek (φ s) = (h.peek s).map φ
  flush : ∀ s, h'.flush (φ s) = (h.flush s).map φ
  quitRequested : ∀ s, h'.quitRequested (φ s) = h.quitRequested s
  follow : ∀ sounding s, h'.follow sounding (φ s) = (h.follow sounding s).map φ
  draw : ∀ screen s, h'.draw screen (φ s) = (h.draw screen s).map φ

namespace Console

def map (φ : σ → τ) (c : Console σ) : Console τ := ⟨c.machine, c.holds, φ c.host, c.log⟩

def mapResult (φ : σ → τ) :
    EStateM.Result Trouble (Console σ) α → EStateM.Result Trouble (Console τ) α
  | .ok a c => .ok a (c.map φ)
  | .error t c => .error t (c.map φ)

/-- The second action does at the mapped console what the first does at the console. -/
def Maps (φ : σ → τ) (x : Action σ α) (y : Action τ α) : Prop :=
  ∀ c, y (c.map φ) = mapResult φ (x c)

variable {φ : σ → τ} {h : Host σ} {h' : Host τ}

namespace Maps

lemma of_lockstep {x : Action σ α} {y : Action τ α}
    (hxy : Lockstep (fun c d => d = c.map φ) x y) : Maps φ x y := by
  intro c
  have hends := hxy c (c.map φ) rfl
  generalize x c = result at hends ⊢
  generalize y (c.map φ) = result' at hends ⊢
  cases hends with
  | ok _ related | error _ related =>
    subst related
    rfl

lemma lockstep {x : Action σ α} {y : Action τ α} (hxy : Maps φ x y) :
    Lockstep (fun c d => d = c.map φ) x y := by
  rintro c _ rfl
  rw [hxy c]
  cases x c with
  | ok a _ => exact .ok a rfl
  | error t _ => exact .error t rfl

lemma ask {call : σ → Answer σ α} {call' : τ → Answer τ α}
    (hcall : ∀ s, call' (φ s) = (call s).map φ) : Maps φ (ask call) (ask call') := by
  intro c
  have hanswer : call' (c.map φ).host = (call c.host).map φ := hcall c.host
  cases hr : (call c.host).result with
  | ok a =>
    rw [ask_of_ok hr, ask_of_ok (by rw [hanswer]; exact hr), hanswer]
    rfl
  | error message =>
    rw [ask_of_error hr, ask_of_error (by rw [hanswer]; exact hr), hanswer]
    rfl

lemma notePress (hold : Nat) (c : Console σ) (key : UInt8) :
    (notePress hold c key).map φ = notePress hold (c.map φ) key := by
  unfold Console.notePress
  split <;> rfl

lemma keptInside (φ : σ → τ) :
    KeptInside fun (c : Console σ) (d : Console τ) => d = c.map φ where
  machine := by rintro c _ rfl; rfl
  stepped := by rintro c _ rfl; rfl
  ticked := by rintro c _ rfl; rfl
  notePress := by rintro c _ rfl hold key; exact (notePress hold c key).symm
  pressHeld := by rintro c _ rfl; rfl

lemma keptByCalls (hm : Host.Maps φ h h') :
    KeptByCalls (fun (c : Console σ) (d : Console τ) => d = c.map φ) h h' where
  peek := lockstep (ask hm.peek)
  flush := lockstep (ask hm.flush)
  follow sounding := lockstep (ask (hm.follow sounding))
  draw screen := lockstep (ask (hm.draw screen))

theorem updateKeys (hm : Host.Maps φ h h') (s : FrameSettings) :
    Maps φ (updateKeys h s) (updateKeys h' s) :=
  of_lockstep (Lockstep.updateKeys (keptInside φ) (keptByCalls hm) s)

theorem frame (hm : Host.Maps φ h h') (s : FrameSettings) : Maps φ (frame h s) (frame h' s) :=
  of_lockstep (Lockstep.frame (keptInside φ) (keptByCalls hm) s)

end Maps

def Progress.map (φ : σ → τ) : Progress σ → Progress τ
  | .ended outcome => .ended (mapResult φ outcome)
  | .going frames console => .going frames (console.map φ)

lemma round_map (hm : Host.Maps φ h h') (s : FrameSettings) (limit : Option Nat) (frames : Nat)
    (c : Console σ) : round h' s limit frames (c.map φ) = (round h s limit frames c).map φ := by
  have hquit : h'.quitRequested (c.map φ).host = h.quitRequested c.host :=
    hm.quitRequested c.host
  unfold round
  rw [hquit, Maps.frame hm s c]
  cases limit.any (· ≤ frames) with
  | true => rfl
  | false =>
    cases h.quitRequested c.host with
    | true => rfl
    | false => cases frame h s c <;> rfl

lemma rounds_map (hm : Host.Maps φ h h') (s : FrameSettings) (limit : Option Nat)
    (fuel frames : Nat) (c : Console σ) : rounds h' s limit fuel frames (c.map φ) =
      (rounds h s limit fuel frames c).map (mapResult φ) := by
  induction fuel generalizing frames c with
  | zero => rfl
  | succ fuel ih =>
    unfold rounds
    rw [round_map hm]
    cases round h s limit frames c with
    | ended outcome => rfl
    | going next d => exact ih next d

lemma silence_map (hm : Host.Maps φ h h') (o : Outcome σ) :
    silence h' (mapResult φ o) = mapResult φ (silence h o) := by
  cases o with
  | ok frames c =>
    simp only [silence, mapResult, Maps.ask (hm.follow false) c]
    cases ask (h.follow false) c <;> rfl
  | error first c =>
    simp only [silence, mapResult, Maps.ask (hm.follow false) c]
    cases ask (h.follow false) c <;> rfl

theorem loop_map (hm : Host.Maps φ h h') (s : FrameSettings) (limit : Option Nat)
    (c : Console σ) : loop h' s limit (c.map φ) = (loop h s limit c).map (mapResult φ) := by
  rw [loop, loop, rounds_map hm, Option.map_map, Option.map_map]
  congr 1
  funext o
  exact silence_map hm o

end Console

end ChipEight
