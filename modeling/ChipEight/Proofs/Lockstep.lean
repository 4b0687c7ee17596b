import ChipEight.Proofs.Frames

/-! Two consoles in lockstep, each at a host of its own. Two actions keep a relation of such consoles if
from related consoles they end in the same way and leave related consoles behind. A relation that is kept
by a step, by a tick and by the keys, and by each call to the two hosts, is kept by a whole frame. -/
namespace ChipEight.Console

variable {σ τ α β : Type} {R : Console σ → Console τ → Prop}

/-- The same result, with related consoles. -/
inductive EndsRelated (R : Console σ → Console τ → Prop) :
    EStateM.Result Trouble (Console σ) α → EStateM.Result Trouble (Console τ) α → Prop
  | ok (a : α) {c : Console σ} {d : Console τ} (related : R c d) :
      EndsRelated R (.ok a c) (.ok a d)
  | error (t : Trouble) {c : Console σ} {d : Console τ} (related : R c d) :
      EndsRelated R (.error t c) (.error t d)

def Lockstep (R : Console σ → Console τ → Prop) (x : Action σ α) (y : Action τ α) : Prop :=
  ∀ c d, R c d → EndsRelated R (x c) (y d)

/-- What a console does on its own keeps the relation, and the machines are the same. -/
structure KeptInside (R : Console σ → Console τ → Prop) : Prop where
  machine : ∀ {c d}, R c d → c.machine = d.machine
  stepped : ∀ {c d}, R c d → R c.stepped d.stepped
  ticked : ∀ {c d}, R c d →
    R { c with machine := c.machine.tick } { d with machine := d.machine.tick }
  notePress : ∀ {c d}, R c d → ∀ hold key, R (notePress hold c key) (notePress hold d key)
  pressHeld : ∀ {c d}, R c d → R c.pressHeld d.pressHeld

/-- So does every call to the hosts; to have the buzzer follow counts as one call. -/
structure KeptByCalls (R : Console σ → Console τ → Prop) (h : Host σ) (h' : Host τ) : Prop where
  peek : Lockstep R (ask h.peek) (ask h'.peek)
  flush : Lockstep R (ask h.flush) (ask h'.flush)
  follow : ∀ sounding, Lockstep R (ask (h.follow sounding)) (ask (h'.follow sounding))
  draw : ∀ screen, Lockstep R (ask (h.draw screen)) (ask (h'.draw screen))

namespace Lockstep

lemma bind {x : Action σ α} {y : Action τ α} {f : α → Action σ β} {g : α → Action τ β}
    (hx : Lockstep R x y) (hf : ∀ a, Lockstep R (f a) (g a)) :
    Lockstep R (x >>= f) (y >>= g) := by
  intro c d hcd
  have hends := hx c d hcd
  generalize hc : x c = result at hends
  generalize hd : y d = result' at hends
  cases hends with
  | ok a related =>
    rw [bind_of_ok hc, bind_of_ok hd]
    exact hf a _ _ related
  | error t related =>
    rw [bind_of_error hc, bind_of_error hd]
    exact .error t related

lemma get_bind {f : Console σ → Action σ α} {g : Console τ → Action τ α}
    (hf : ∀ c d, R c d → Lockstep R (f c) (g d)) : Lockstep R (get >>= f) (get >>= g) :=
  fun c d hcd => hf c d hcd c d hcd

lemma modify {f : Console σ → Console σ} {g : Console τ → Console τ}
    (hf : ∀ c d, R c d → R (f c) (g d)) : Lockstep R (modify f) (modify g) :=
  fun c d hcd => .ok PUnit.unit (hf c d hcd)

lemma runCycles (hR : KeptInside R) (n : Nat) : Lockstep R (runCycles n) (runCycles n) := by
  induction n with
  | zero => exact fun c d hcd => .ok () hcd
  | succ n ih =>
    intro c d hcd
    have hstepped := hR.stepped hcd
    rw [runCycles_succ, runCycles_succ, hR.machine hcd]
    cases d.machine.step.result with
    | ok u => exact ih _ _ hstepped
    | error f =>
      cases hf : f.isFatal with
      | true =>
        simp only [hf, if_true]
        exact .error _ hstepped
      | false =>
        simp only [hf, Bool.false_eq_true, if_false]
        exact ih _ _ hstepped

end Lockstep

variable {h : Host σ} {h' : Host τ}

lemma KeptInside.foldl_notePress (hR : KeptInside R) (hold : Nat) (keys : List UInt8)
    {c : Console σ} {d : Console τ} (hcd : R c d) :
    R (keys.foldl (Console.notePress hold) c) (keys.foldl (Console.notePress hold) d) := by
  induction keys generalizing c d with
  | nil => exact hcd
  | cons key keys ih => exact ih (hR.notePress hcd hold key)

namespace Lockstep

theorem updateKeys (hR : KeptInside R) (hh : KeptByCalls R h h') (s : FrameSettings) :
    Lockstep R (updateKeys h s) (updateKeys h' s) :=
  bind hh.peek fun keys =>
    bind (modify fun _ _ => hR.foldl_notePress s.keyHoldFrames keys) fun _ =>
      bind hh.flush fun _ => modify fun _ _ => hR.pressHeld

theorem frame (hR : KeptInside R) (hh : KeptByCalls R h h') (s : FrameSettings) :
    Lockstep R (frame h s) (frame h' s) := by
  refine bind (updateKeys hR hh s) fun _ => bind (modify fun _ _ => hR.ticked) fun _ => ?_
  refine get_bind fun c d hcd => ?_
  rw [hR.machine hcd]
  refine bind (hh.follow _) fun _ => get_bind fun c d hcd => ?_
  rw [hR.machine hcd]
  refine bind (runCycles hR _) fun _ => get_bind fun c d hcd => ?_
  rw [hR.machine hcd]
  exact hh.draw _

end Lockstep

end ChipEight.Console
