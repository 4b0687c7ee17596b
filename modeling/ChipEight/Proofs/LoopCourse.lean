import ChipEight.FrameLoop
import ChipEight.Proofs.KeyHold

/-! How a loop goes. Some number of frames go well, each run below the limit with no wish to quit, and
then the loop ends in one of three ways: at the limit, by a wish to quit, or in a frame that fails. That
number and the ending are all there is to a loop, and after the ending the buzzer is switched off. -/
namespace ChipEight.Console

variable {σ : Type}

/-- Frame `k` of a loop is run, counted from 0, and the loop goes on after it. -/
structure GoesOn (h : Host σ) (s : FrameSettings) (limit : Option Nat) (c : Console σ) (k : Nat) :
    Prop where
  below : ∀ m, limit = some m → k < m
  unasked : h.quitRequested (afterFrames h s c k).host = false
  frame : frame h s (afterFrames h s c k) = .ok () (afterFrames h s c (k + 1))

/-- How a loop ends when `n` frames have gone well. Only the last case looks at another frame. -/
inductive Ending (h : Host σ) (s : FrameSettings) (limit : Option Nat) (c : Console σ) (n : Nat) :
    Outcome σ → Prop
  | limited (reached : limit = some n) : Ending h s limit c n (.ok n (afterFrames h s c n))
  | quit (below : ∀ m, limit = some m → n < m)
      (asked : h.quitRequested (afterFrames h s c n).host = true) :
      Ending h s limit c n (.ok n
        { afterFrames h s c n with log := (afterFrames h s c n).log.push (.quit n) })
  | troubled {t : Trouble} {d : Console σ} (below : ∀ m, limit = some m → n < m)
      (unasked : h.quitRequested (afterFrames h s c n).host = false)
      (fails : Console.frame h s (afterFrames h s c n) = .error t d) :
      Ending h s limit c n (.error t d)

variable {h : Host σ} {s : FrameSettings} {limit : Option Nat} {c : Console σ} {n : Nat}

lemma any_le_eq_false_iff : limit.any (· ≤ n) = false ↔ ∀ m, limit = some m → n < m := by
  cases limit <;> simp

lemma afterFrames_succ_of_ok {d : Console σ} (hd : frame h s (afterFrames h s c n) = .ok () d) :
    afterFrames h s c (n + 1) = d := by
  rw [afterFrames, afterFrame, hd]

lemma goesOn_of_round {next : Nat} {d : Console σ}
    (hr : round h s limit n (afterFrames h s c n) = .going next d) :
    GoesOn h s limit c n ∧ next = n + 1 ∧ d = afterFrames h s c (n + 1) := by
  obtain ⟨hlimit, hquit, hframe, hnext⟩ := (round_eq_going_iff h s limit n next _ d).1 hr
  have hd := afterFrames_succ_of_ok hframe
  exact ⟨⟨any_le_eq_false_iff.1 hlimit, hquit, hd ▸ hframe⟩, hnext, hd.symm⟩

lemma GoesOn.round (hk : GoesOn h s limit c n) :
    round h s limit n (afterFrames h s c n) = .going (n + 1) (afterFrames h s c (n + 1)) :=
  (round_eq_going_iff h s limit n _ _ _).2
    ⟨any_le_eq_false_iff.2 hk.below, hk.unasked, hk.frame, rfl⟩

/-- The limit is met exactly, since the frames before have been below it. -/
lemma limit_eq_of_goesOn (hgood : ∀ k < n, GoesOn h s limit c k)
    (hreached : limit.any (· ≤ n) = true) : limit = some n := by
  cases limit with
  | none => cases hreached
  | some m =>
    have hle : m ≤ n := by simpa using hreached
    have hge : n ≤ m := by
      cases n with
      | zero => exact Nat.zero_le m
      | succ k => exact (hgood k (Nat.lt_succ_self k)).below m rfl
    rw [Nat.le_antisymm hle hge]

lemma ending_of_round (hgood : ∀ k < n, GoesOn h s limit c k) {o : Outcome σ}
    (hr : round h s limit n (afterFrames h s c n) = .ended o) : Ending h s limit c n o := by
  unfold Console.round at hr
  cases hl : limit.any (· ≤ n) with
  | true =>
    simp only [hl, if_true] at hr
    cases hr
    exact .limited (limit_eq_of_goesOn hgood hl)
  | false =>
    have hbelow := any_le_eq_false_iff.1 hl
    cases hq : h.quitRequested (afterFrames h s c n).host with
    | true =>
      simp only [hl, hq, Bool.false_eq_true, if_false, if_true] at hr
      cases hr
      exact .quit hbelow hq
    | false =>
      simp only [hl, hq, Bool.false_eq_true, if_false] at hr
      cases hf : frame h s (afterFrames h s c n) with
      | ok u d =>
        rw [hf] at hr
        cases hr
      | error t d =>
        rw [hf] at hr
        cases hr
        exact .troubled hbelow hq hf

lemma Ending.round {o : Outcome σ} (ho : Ending h s limit c n o) :
    round h s limit n (afterFrames h s c n) = .ended o := by
  unfold Console.round
  cases ho with
  | limited reached => simp only [reached, Option.any_some, Nat.le_refl, decide_true, if_true]
  | quit below asked =>
    simp only [any_le_eq_false_iff.2 below, asked, Bool.false_eq_true, if_false, if_true]
  | troubled below unasked fails =>
    simp only [any_le_eq_false_iff.2 below, unasked, fails, Bool.false_eq_true, if_false]

lemma rounds_course {fuel : Nat} (hgood : ∀ k < n, GoesOn h s limit c k) {o : Outcome σ}
    (ho : rounds h s limit fuel n (afterFrames h s c n) = some o) :
    ∃ n, (∀ k < n, GoesOn h s limit c k) ∧ Ending h s limit c n o := by
  induction fuel generalizing n with
  | zero => cases ho
  | succ fuel ih =>
    rw [rounds] at ho
    cases hr : Console.round h s limit n (afterFrames h s c n) with
    | ended outcome =>
      rw [hr] at ho
      cases ho
      exact ⟨n, hgood, ending_of_round hgood hr⟩
    | going next d =>
      rw [hr] at ho
      obtain ⟨hn, rfl, rfl⟩ := goesOn_of_round hr
      refine ih (fun k hk => ?_) ho
      obtain hlt | rfl := Nat.lt_succ_iff_lt_or_eq.1 hk
      · exact hgood k hlt
      · exact hn

lemma rounds_of_ending (hgood : ∀ k < n, GoesOn h s limit c k) {o : Outcome σ}
    (ho : Ending h s limit c n o) {fuel j : Nat} (hj : j ≤ n) (hfuel : n - j < fuel) :
    rounds h s limit fuel j (afterFrames h s c j) = some o := by
  induction fuel generalizing j with
  | zero => omega
  | succ fuel ih =>
    rw [rounds]
    obtain hlt | rfl := Nat.lt_or_eq_of_le hj
    · rw [(hgood j hlt).round]
      exact ih hlt (by omega)
    · rw [ho.round]

theorem loop_course {o : Outcome σ} (ho : loop h s limit c = some o) :
    ∃ n e, (∀ k < n, GoesOn h s limit c k) ∧ Ending h s limit c n e ∧ o = silence h e := by
  obtain ⟨e, he, rfl⟩ := Option.map_eq_some_iff.1 ho
  obtain ⟨n, hgood, hending⟩ := rounds_course (n := 0) nofun he
  exact ⟨n, e, hgood, hending, rfl⟩

theorem loop_of_ending (hgood : ∀ k < n, GoesOn h s limit c k) {e : Outcome σ}
    (he : Ending h s limit c n e) (hn : n < longestLoop) :
    loop h s limit c = some (silence h e) := by
  have hrounds : rounds h s limit longestLoop 0 c = some e :=
    rounds_of_ending hgood he (Nat.zero_le n) hn
  rw [loop, hrounds]
  rfl

end ChipEight.Console
