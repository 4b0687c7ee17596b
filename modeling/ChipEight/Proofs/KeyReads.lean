import ChipEight.Proofs.Asides
import ChipEight.Proofs.Frames

/-! Which steps look at which keys. A pending wait and the instruction that begins one look at all of them,
a test looks at the key that its register names, if it names one, and no other step looks at any. What a
step does depends on the keys that it looks at, and none of it on the others. -/
namespace ChipEight

namespace Keypad

lemma isPressed_of_ge (p : Keypad) {index : Nat} (h : 16 ≤ index) : p.isPressed index = false := by
  have hnone : p.keys[index]? = none := Vector.getElem?_eq_none h
  rw [isPressed, hnone]
  rfl

lemma firstPressed_congr {p q : Keypad} (h : ∀ k : Key, p.isPressed k.val = q.isPressed k.val) :
    p.firstPressed = q.firstPressed := by
  have hfun : (fun k : Key => p.isPressed k.val) = fun k : Key => q.isPressed k.val := funext h
  rw [firstPressed, firstPressed, hfun]

end Keypad

namespace Machine

def withKeypad (m : Machine) (p : Keypad) : Machine := { m with keypad := p }

/-- The instruction asks whether key `k` is down. -/
def AsksFor (m : Machine) (k : Key) : Instruction → Prop
  | .waitKey _ => True
  | .skip (.keyDown x) | .skip (.keyUp x) => (m.v.get x).toNat = k.val
  | _ => False

def LooksAt (m : Machine) (k : Key) : Prop :=
  (∃ x, m.status = .awaitingKey x) ∨ ∃ i, m.next? = some i ∧ m.AsksFor k i

variable {m : Machine} {p : Keypad}

lemma isPressed_of_agrees {index : Nat}
    (h : ∀ k : Key, index = k.val → p.isPressed k.val = m.keypad.isPressed k.val) :
    p.isPressed index = m.keypad.isPressed index := by
  obtain hlt | hge := Nat.lt_or_ge index 16
  · exact h ⟨index, hlt⟩ rfl
  · rw [p.isPressed_of_ge hge, m.keypad.isPressed_of_ge hge]

lemma overlooks_of_agrees {i : Instruction}
    (h : ∀ k, m.AsksFor k i → p.isPressed k.val = m.keypad.isPressed k.val) :
    m.Overlooks { keypad := fun _ => p } i := by
  cases i with
  | skip c =>
    cases c with
    | keyDown x => exact isPressed_of_agrees h
    | keyUp x => exact congrArg (!·) (isPressed_of_agrees h)
    | isByte _ _ | isNotByte _ _ | same _ _ | differ _ _ => rfl
  | waitKey x => exact Keypad.firstPressed_congr fun k => h k trivial
  | storeDecimal x => exact (id_map _).symm
  | storeBlock last => exact ⟨(id_map _).symm, rfl⟩
  | loadBlock last => exact ⟨rfl, rfl⟩
  | combine _ _ _ | getDelay _ | setDelay _ | setSound _ | loadGlyph _ | draw _ _ _ => rfl
  | _ => trivial

theorem step_withKeypad
    (h : ∀ k, m.LooksAt k → p.isPressed k.val = m.keypad.isPressed k.val) :
    (m.withKeypad p).step = m.step.map (·.withKeypad p) := by
  refine step_of_aside (aside_alter { keypad := fun _ => p }) ?_ rfl ?_
  · intro x hs
    exact pollKey_alter (Keypad.firstPressed_congr fun k => h k (.inl ⟨x, hs⟩)) x
  · intro i hi
    exact execute_alter (m := m.advance)
      (overlooks_of_agrees fun k hk => h k (.inr ⟨i, hi, hk⟩)) m.pc

/-- Two operations that come to the same in either order: both answer as they do on their own, and there
is the same machine and the same log in the end. -/
structure Commute (m : Machine) (a b : Operation) : Prop where
  first : ((m.perform b).machine.perform a).result = (m.perform a).result
  second : ((m.perform a).machine.perform b).result = (m.perform b).result
  after : m.after [a, b] = m.after [b, a]
  log : m.logOf [a, b] = m.logOf [b, a]

lemma perform_setKey (m : Machine) (k : Key) (pressed : Bool) :
    m.perform (.setKey k.val pressed) = ⟨.ok (), m.withKeypad (m.keypad.setKey k pressed), []⟩ :=
  setKey_of_lt m k.isLt pressed

lemma commute_setKey_step {k : Key} (h : ¬ m.LooksAt k) (pressed : Bool) :
    Commute m (.setKey k.val pressed) .step := by
  have hagrees : ∀ j, m.LooksAt j →
      (m.keypad.setKey k pressed).isPressed j.val = m.keypad.isPressed j.val := by
    intro j hj
    rw [Keypad.isPressed_setKey, if_neg]
    intro heq
    exact h (Fin.ext heq ▸ hj)
  have hstep : (m.perform (.setKey k.val pressed)).machine.perform .step =
      m.step.map (·.withKeypad (m.keypad.setKey k pressed)) := by
    rw [perform_setKey]
    exact step_withKeypad hagrees
  have hset : (m.perform .step).machine.perform (.setKey k.val pressed) =
      ⟨.ok (), m.step.machine.withKeypad (m.keypad.setKey k pressed), []⟩ := by
    rw [perform_setKey, ← keypad_step m]
    rfl
  refine ⟨?_, ?_, ?_, ?_⟩
  · rw [hset, perform_setKey]
  · rw [hstep]
    rfl
  · change ((m.perform (.setKey k.val pressed)).machine.perform .step).machine =
      ((m.perform .step).machine.perform (.setKey k.val pressed)).machine
    rw [hstep, hset]
    rfl
  · simp only [logOf, replies, List.flatMap_cons, List.flatMap_nil, hstep, hset]
    rw [perform_setKey]
    rfl

/-- No wait is pending, and none of the next `n` steps executes an instruction that asks for a key. -/
structure StepsPassKeys (m : Machine) (n : Nat) : Prop where
  notWaiting : ∀ x, m.status ≠ .awaitingKey x
  passes : ∀ j < n, ∀ i, (m.afterSteps j).next? = some i → ∀ k, ¬ (m.afterSteps j).AsksFor k i

lemma next?_of_awaiting_step {x : Register} (hn : ∀ y, m.status ≠ .awaitingKey y)
    (h : m.step.machine.status = .awaitingKey x) : m.next? = some (.waitKey x) := by
  have hcase := step_cases m
  generalize m.step = r at hcase h
  cases hcase with
  | stuck _ => exact absurd h (hn x)
  | idle status _ => exact absurd status (hn _)
  | resumed _ _ => cases h
  | @failed f _ status =>
    cases hf : f.isFatal with
    | true =>
      simp only [hf, if_true] at h
      cases h
    | false =>
      simp only [hf, Bool.false_eq_true, if_false] at h
      exact absurd h (hn x)
  | executed _ next _ he =>
    obtain ⟨-, hflow⟩ := execute_flow he
    cases hflow with
    | straight _ _ status | skips _ _ _ status | jumps _ _ status | jumpsOffset _ _ status
    | calls _ _ status | returns _ status => exact absurd (status.symm.trans h) (hn x)
    | waits _ heq =>
      subst heq
      cases h
      exact next

lemma StepsPassKeys.not_looksAt {n : Nat} (h : m.StepsPassKeys (n + 1)) (k : Key) :
    ¬ m.LooksAt k := by
  rintro (⟨x, hx⟩ | ⟨i, hi, hk⟩)
  · exact h.notWaiting x hx
  · exact h.passes 0 (Nat.succ_pos n) i hi k hk

lemma StepsPassKeys.rest {n : Nat} (h : m.StepsPassKeys (n + 1)) :
    m.step.machine.StepsPassKeys n where
  notWaiting _ hx :=
    h.passes 0 (Nat.succ_pos n) _ (next?_of_awaiting_step h.notWaiting hx) 0 trivial
  passes j hj := h.passes (j + 1) (Nat.succ_lt_succ hj)

lemma replies_withKeypad {n : Nat} (h : m.StepsPassKeys n) (p : Keypad) :
    (m.withKeypad p).replies (List.replicate n .step) =
      (m.replies (List.replicate n .step)).map (.map (·.withKeypad p)) := by
  induction n generalizing m with
  | zero => rfl
  | succ n ih =>
    have hfirst : (m.withKeypad p).perform .step = m.step.map (·.withKeypad p) :=
      step_withKeypad fun k hk => absurd hk (h.not_looksAt k)
    rw [List.replicate_succ, replies, replies, List.map_cons, hfirst]
    exact congrArg (m.step.map (·.withKeypad p) :: ·) (ih h.rest)

/-- To press or release a key and to take a step come to the same in either order, unless the step looks
at that key. A run of steps that look at none gives the same results, logs and machines on every keypad,
but for the keypad itself. -/
theorem keys_reach_only_key_steps (m : Machine) :
    (∀ (k : Key) (pressed : Bool), ¬ m.LooksAt k → Commute m (.setKey k.val pressed) .step) ∧
      ∀ n, m.StepsPassKeys n → ∀ p, (m.withKeypad p).replies (List.replicate n .step) =
        (m.replies (List.replicate n .step)).map (.map (·.withKeypad p)) :=
  ⟨fun _ pressed h => commute_setKey_step h pressed, fun _ h p => replies_withKeypad h p⟩

/-- A test of the key that register 0 names, which is none, and then of the one that register 1 names. -/
def testingKeys : Machine :=
  (start ⟨fun _ => 0, 0⟩ {}).after [.load [0x60, 0x13, 0xe0, 0x9e, 0xe1, 0xa1]]

/-- The first two steps are the same on every keypad. In the third, key 3 can be pressed before or after
the test of key 0. -/
theorem keys_reach_only_key_steps_testing :
    testingKeys.StepsPassKeys 2 ∧
      (∀ p, (testingKeys.withKeypad p).replies [.step, .step] =
        (testingKeys.replies [.step, .step]).map (.map (·.withKeypad p))) ∧
      (testingKeys.afterSteps 2).LooksAt 0 ∧ ¬ (testingKeys.afterSteps 2).LooksAt 3 ∧
      Commute (testingKeys.afterSteps 2) (.setKey 3 true) .step := by
  have facts : testingKeys.status = .running ∧
      (testingKeys.afterSteps 0).next? = some (.loadByte 0 0x13) ∧
      (testingKeys.afterSteps 1).next? = some (.skip (.keyDown 0)) ∧
      (testingKeys.afterSteps 1).v.get 0 = 0x13 ∧
      (testingKeys.afterSteps 2).status = .running ∧
      (testingKeys.afterSteps 2).next? = some (.skip (.keyUp 1)) ∧
      (testingKeys.afterSteps 2).v.get 1 = 0 := by
    decide +kernel
  obtain ⟨hs, hnext, hnext1, hv1, hs2, hnext2, hv2⟩ := facts
  have hpass : testingKeys.StepsPassKeys 2 := by
    refine ⟨?_, ?_⟩
    · intro x hx
      exact nomatch hs.symm.trans hx
    · intro j hj i hi k hk
      obtain rfl | rfl : j = 0 ∨ j = 1 := by omega
      · obtain rfl := Option.some.inj (hnext.symm.trans hi)
        exact hk
      · obtain rfl := Option.some.inj (hnext1.symm.trans hi)
        have hkey : ((testingKeys.afterSteps 1).v.get 0).toNat = k.val := hk
        rw [hv1] at hkey
        exact absurd k.isLt (hkey ▸ by decide)
  have hlook : (testingKeys.afterSteps 2).LooksAt 0 :=
    .inr ⟨_, hnext2, congrArg UInt8.toNat hv2⟩
  have hlook3 : ¬ (testingKeys.afterSteps 2).LooksAt 3 := by
    rintro (⟨x, hx⟩ | ⟨i, hi, hk⟩)
    · exact nomatch hs2.symm.trans hx
    · obtain rfl := Option.some.inj (hnext2.symm.trans hi)
      have hkey : ((testingKeys.afterSteps 2).v.get 1).toNat = 3 := hk
      rw [hv2] at hkey
      cases hkey
  exact ⟨hpass, (keys_reach_only_key_steps testingKeys).2 2 hpass, hlook, hlook3,
    (keys_reach_only_key_steps (testingKeys.afterSteps 2)).1 3 true hlook3⟩

end Machine

end ChipEight
