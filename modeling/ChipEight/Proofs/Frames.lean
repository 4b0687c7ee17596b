import ChipEight.Console
import ChipEight.Proofs.Hosting
import ChipEight.Proofs.StepCases

/-! How a frame goes. A frame passes through fixed stages, and `Course` lists the six ways in which it
comes to its end: at one of the four calls of its host, at a fatal failure of its machine, or with a
picture drawn. The machine in between is told by the number of steps that it has taken. -/
namespace ChipEight

namespace Machine

variable {m : Machine}

def afterSteps (m : Machine) (n : Nat) : Machine := m.after (List.replicate n .step)

lemma afterSteps_succ (m : Machine) (n : Nat) :
    m.afterSteps (n + 1) = m.step.machine.afterSteps n := rfl

lemma afterSteps_snoc (m : Machine) (n : Nat) :
    m.afterSteps (n + 1) = (m.afterSteps n).step.machine := by
  rw [afterSteps, List.replicate_succ', after_snoc]
  rfl

lemma afterSteps_keeps {α : Type} (f : Machine → α) {n : Nat}
    (h : ∀ k < n, f (m.afterSteps k).step.machine = f (m.afterSteps k)) :
    f (m.afterSteps n) = f m := by
  induction n with
  | zero => rfl
  | succ n ih =>
    rw [afterSteps_snoc, h n (Nat.lt_succ_self n)]
    exact ih fun k hk => h k (Nat.lt_succ_of_lt hk)

/-- After `i` steps the next one fails with `f`, fatally. -/
def FatalAt (m : Machine) (i : Nat) (f : Failure) : Prop :=
  (m.afterSteps i).step.result = .error f ∧ f.isFatal = true

/-- What comes of up to `n` steps that only a fatal failure cuts short. -/
inductive StepsTo (m : Machine) (n : Nat) : Except Failure Unit → Machine → Prop
  | all (none : ∀ i < n, ∀ f, ¬ m.FatalAt i f) : StepsTo m n (.ok ()) (m.afterSteps n)
  | cut {i : Nat} {f : Failure} (lt : i < n) (first : ∀ j < i, ∀ g, ¬ m.FatalAt j g)
      (fatal : m.FatalAt i f) : StepsTo m n (.error f) (m.afterSteps (i + 1))

lemma StepsTo.cons {n : Nat} {result : Except Failure Unit} {m' : Machine}
    (hfirst : ∀ f, ¬ m.FatalAt 0 f) (h : StepsTo m.step.machine n result m') :
    StepsTo m (n + 1) result m' := by
  have hshift (k : Nat) (hk : ∀ i < k, ∀ f, ¬ m.step.machine.FatalAt i f) :
      ∀ i < k + 1, ∀ f, ¬ m.FatalAt i f := by
    intro i hi
    cases i with
    | zero => exact hfirst
    | succ i => exact hk i (by omega)
  cases h with
  | all none => exact .all (hshift n none)
  | cut lt first fatal => exact .cut (Nat.succ_lt_succ lt) (hshift _ first) fatal

lemma StepsTo.exists_steps {m' : Machine} {n : Nat} {result : Except Failure Unit}
    (h : m.StepsTo n result m') : ∃ steps, m' = m.afterSteps steps := by
  cases h with
  | all _ => exact ⟨n, rfl⟩
  | @cut i _ _ _ _ => exact ⟨i + 1, rfl⟩

lemma keypad_afterSteps (m : Machine) (n : Nat) : (m.afterSteps n).keypad = m.keypad :=
  afterSteps_keeps Machine.keypad fun _ _ => keypad_step _

end Machine

namespace Console

variable {σ α β : Type}

lemma bind_of_ok {x : Action σ α} {next : α → Action σ β} {c d : Console σ} {a : α}
    (h : x c = .ok a d) : (x >>= next) c = next a d := by
  simp only [bind, EStateM.bind, h]

lemma bind_of_error {x : Action σ α} {next : α → Action σ β} {c d : Console σ} {t : Trouble}
    (h : x c = .error t d) : (x >>= next) c = .error t d := by
  simp only [bind, EStateM.bind, h]

lemma modify_bind (f : Console σ → Console σ) (next : PUnit → Action σ β) (c : Console σ) :
    (modify f >>= next) c = next () (f c) := rfl

lemma get_bind (next : Console σ → Action σ β) (c : Console σ) : (get >>= next) c = next c c := rfl

def called (c : Console σ) (call : σ → Answer σ α) : Console σ :=
  { c with host := (call c.host).state, log := c.log ++ (call c.host).log }

/-- Steps change the machine and the log of a console and nothing else. -/
theorem runCycles_spec (n : Nat) (c : Console σ) : ∃ d : Console σ,
    d.holds = c.holds ∧ d.host = c.host ∧
      ((runCycles n c = .ok () d ∧ c.machine.StepsTo n (.ok ()) d.machine) ∨
        ∃ f, runCycles n c = .error (.machine f) d ∧ c.machine.StepsTo n (.error f) d.machine) := by
  induction n generalizing c with
  | zero => exact ⟨c, rfl, rfl, .inl ⟨rfl, .all nofun⟩⟩
  | succ n ih =>
    obtain ⟨d, hholds, hhost, hrest⟩ := ih c.stepped
    rw [runCycles_succ]
    -- the step in front passes unless it fails fatally
    have hpass (hfirst : ∀ f, ¬ c.machine.FatalAt 0 f) : ∃ d : Console σ,
        d.holds = c.holds ∧ d.host = c.host ∧
          ((runCycles n c.stepped = .ok () d ∧ c.machine.StepsTo (n + 1) (.ok ()) d.machine) ∨
            ∃ f, runCycles n c.stepped = .error (.machine f) d ∧
              c.machine.StepsTo (n + 1) (.error f) d.machine) := by
      refine ⟨d, hholds, hhost, ?_⟩
      obtain ⟨hrun, hsteps⟩ | ⟨f, hrun, hsteps⟩ := hrest
      · exact .inl ⟨hrun, hsteps.cons hfirst⟩
      · exact .inr ⟨f, hrun, hsteps.cons hfirst⟩
    cases hr : c.machine.step.result with
    | ok u =>
      apply hpass
      rintro f ⟨hf, -⟩
      exact nomatch hr.symm.trans hf
    | error f =>
      cases hf : f.isFatal with
      | true =>
        refine ⟨c.stepped, rfl, rfl, .inr ⟨f, by simp only [hf, if_true], ?_⟩⟩
        exact .cut (Nat.succ_pos n) nofun ⟨hr, hf⟩
      | false =>
        simp only [hf, Bool.false_eq_true, if_false]
        apply hpass
        rintro g ⟨hg, hfatal⟩
        cases hr.symm.trans hg
        exact nomatch hf.symm.trans hfatal

/-- Once the keys `keys` have been read and noted. -/
def read (c : Console σ) (h : Host σ) (s : FrameSettings) (keys : List UInt8) : Console σ :=
  keys.foldl (notePress s.keyHoldFrames) (c.called h.peek)

/-- Once those keys have been flushed and the held ones pressed. -/
def updated (c : Console σ) (h : Host σ) (s : FrameSettings) (keys : List UInt8) : Console σ :=
  ((c.read h s keys).called h.flush).pressHeld

def ticked (c : Console σ) (h : Host σ) (s : FrameSettings) (keys : List UInt8) : Console σ :=
  { c.updated h s keys with machine := (c.updated h s keys).machine.tick }

def followed (c : Console σ) (h : Host σ) (s : FrameSettings) (keys : List UInt8) : Console σ :=
  (c.ticked h s keys).called (h.follow (c.ticked h s keys).machine.isSounding)

variable {h : Host σ} {s : FrameSettings} {c : Console σ}

lemma host_read (c : Console σ) (h : Host σ) (s : FrameSettings) (keys : List UInt8) :
    (c.read h s keys).host = (h.peek c.host).state :=
  host_foldl_notePress _ _ _

lemma machine_read (c : Console σ) (h : Host σ) (s : FrameSettings) (keys : List UInt8) :
    (c.read h s keys).machine = c.machine :=
  machine_foldl_notePress _ _ _

lemma host_updated (c : Console σ) (h : Host σ) (s : FrameSettings) (keys : List UInt8) :
    (c.updated h s keys).host = (h.flush (h.peek c.host).state).state := by
  rw [← host_read c h s keys]
  rfl

lemma machine_updated (c : Console σ) (h : Host σ) (s : FrameSettings) (keys : List UInt8) :
    (c.updated h s keys).machine =
      { c.machine with keypad := keypadOfHolds (c.read h s keys).holds } := by
  rw [← machine_read c h s keys]
  rfl

theorem updateKeys_apply (h : Host σ) (s : FrameSettings) (c : Console σ) : updateKeys h s c =
    match (h.peek c.host).result with
    | .error message => .error (.host message) (c.called h.peek)
    | .ok keys =>
      match (h.flush (h.peek c.host).state).result with
      | .error message => .error (.host message) ((c.read h s keys).called h.flush)
      | .ok () => .ok () (c.updated h s keys) := by
  unfold updateKeys
  cases hp : (h.peek c.host).result with
  | error message => exact bind_of_error (ask_of_error hp)
  | ok keys =>
    rw [bind_of_ok (ask_of_ok hp), modify_bind]
    change (ask h.flush >>= fun _ => modify pressHeld) (c.read h s keys) = _
    rw [← host_read c h s keys]
    cases hf : (h.flush (c.read h s keys).host).result with
    | error message => exact bind_of_error (ask_of_error hf)
    | ok u => exact bind_of_ok (ask_of_ok hf)

lemma exists_keys_of_updateKeys {d : Console σ} (hd : updateKeys h s c = .ok () d) :
    ∃ keys, d = c.updated h s keys := by
  rw [updateKeys_apply] at hd
  split at hd
  · cases hd
  · split at hd
    · cases hd
    · cases hd
      exact ⟨_, rfl⟩

/-- The frame has made its calls before the steps, and they have come to `result`. -/
structure PastSteps (h : Host σ) (s : FrameSettings) (c : Console σ) (keys : List UInt8)
    (result : Except Failure Unit) (d : Console σ) : Prop where
  peek : (h.peek c.host).result = .ok keys
  flush : (h.flush (h.peek c.host).state).result = .ok ()
  follow : (h.follow (c.ticked h s keys).machine.isSounding
    (c.ticked h s keys).host).result = .ok ()
  steps : (c.ticked h s keys).machine.StepsTo (cyclesFor s (c.ticked h s keys).machine) result
    d.machine
  holds : d.holds = (c.ticked h s keys).holds
  host : d.host = (c.followed h s keys).host

/-- The six ways in which a frame ends. -/
inductive Course (h : Host σ) (s : FrameSettings) (c : Console σ) :
    EStateM.Result Trouble (Console σ) Unit → Prop
  | unread {message : String} (peek : (h.peek c.host).result = .error message) :
      Course h s c (.error (.host message) (c.called h.peek))
  | unflushed {keys : List UInt8} {message : String} (peek : (h.peek c.host).result = .ok keys)
      (flush : (h.flush (h.peek c.host).state).result = .error message) :
      Course h s c (.error (.host message) ((c.read h s keys).called h.flush))
  | unfollowed {keys : List UInt8} {message : String} (peek : (h.peek c.host).result = .ok keys)
      (flush : (h.flush (h.peek c.host).state).result = .ok ())
      (follow : (h.follow (c.ticked h s keys).machine.isSounding
        (c.ticked h s keys).host).result = .error message) :
      Course h s c (.error (.host message) (c.followed h s keys))
  | faulted {keys : List UInt8} {f : Failure} {d : Console σ}
      (past : PastSteps h s c keys (.error f) d) : Course h s c (.error (.machine f) d)
  | undrawn {keys : List UInt8} {message : String} {d : Console σ}
      (past : PastSteps h s c keys (.ok ()) d)
      (draw : (h.draw d.machine.screen d.host).result = .error message) :
      Course h s c (.error (.host message) (d.called (h.draw d.machine.screen)))
  | drawn {keys : List UInt8} {d : Console σ} (past : PastSteps h s c keys (.ok ()) d)
      (draw : (h.draw d.machine.screen d.host).result = .ok ()) :
      Course h s c (.ok () (d.called (h.draw d.machine.screen)))

theorem frame_course (h : Host σ) (s : FrameSettings) (c : Console σ) :
    Course h s c (frame h s c) := by
  unfold frame frameWith
  have hkeys := updateKeys_apply h s c
  cases hp : (h.peek c.host).result with
  | error message =>
    simp only [hp] at hkeys
    rw [bind_of_error hkeys]
    exact .unread hp
  | ok keys =>
    cases hf : (h.flush (h.peek c.host).state).result with
    | error message =>
      simp only [hp, hf] at hkeys
      rw [bind_of_error hkeys]
      exact .unflushed hp hf
    | ok u =>
      simp only [hp, hf] at hkeys
      rw [bind_of_ok hkeys, modify_bind, get_bind]
      change Course h s c ((ask (h.follow (c.ticked h s keys).machine.isSounding) >>= _)
        (c.ticked h s keys))
      cases hb : (h.follow (c.ticked h s keys).machine.isSounding
        (c.ticked h s keys).host).result with
      | error message =>
        rw [bind_of_error (ask_of_error hb)]
        exact .unfollowed hp hf hb
      | ok u =>
        have hask : ask (h.follow (c.ticked h s keys).machine.isSounding) (c.ticked h s keys) =
            .ok () (c.followed h s keys) := ask_of_ok hb
        rw [bind_of_ok hask, get_bind]
        obtain ⟨d, hholds, hhost, ⟨hrun, hsteps⟩ | ⟨f, hrun, hsteps⟩⟩ :=
          runCycles_spec (cyclesFor s (c.followed h s keys).machine) (c.followed h s keys)
        · rw [bind_of_ok hrun, get_bind]
          cases hd : (h.draw d.machine.screen d.host).result with
          | error message =>
            rw [ask_of_error hd]
            exact .undrawn ⟨hp, hf, hb, hsteps, hholds, hhost⟩ hd
          | ok u =>
            rw [ask_of_ok hd]
            exact .drawn ⟨hp, hf, hb, hsteps, hholds, hhost⟩ hd
        · rw [bind_of_error hrun]
          exact .faulted ⟨hp, hf, hb, hsteps, hholds, hhost⟩

end Console

end ChipEight
