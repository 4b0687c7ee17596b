import ChipEight.Proofs.Failing

/-! What one step can do, all in one place: repeat a fault, ask once more for a key, take a key, fail,
or execute an instruction. What later modules say of a step they read off these five cases. -/
namespace ChipEight.Machine

inductive StepCase (m : Machine) : Reply → Prop
  | stuck {f : Failure} (status : m.status = .faulted f) : StepCase m ⟨.error f, m, []⟩
  | idle {x : Register} (status : m.status = .awaitingKey x)
      (released : m.keypad.firstPressed = none) : StepCase m ⟨.ok (), m, []⟩
  | resumed {x : Register} {key : Key} (status : m.status = .awaitingKey x)
      (pressed : m.keypad.firstPressed = some key) :
      StepCase m ⟨.ok (), { m.setRegister x (UInt8.ofNat key.val) with status := .running },
        [.resumed key x]⟩
  | failed {f : Failure} {log : List Event} (status : m.status = .running) :
      StepCase m ⟨.error f,
        { m with
          pc := if 4096 < m.pc.toNat + 2 then m.pc else m.pc + 2
          status := if f.isFatal then .faulted f else m.status
          lastFailure := some f }, log⟩
  | executed {w : UInt16} {i : Instruction} {done : Machine} (status : m.status = .running)
      (next : m.next? = some i) (word : m.memory.word m.pc = .ok w)
      (done_eq : execute m.pc i m.advance = .ok done) :
      StepCase m ⟨.ok (), done, .executing m.pc w i :: done.waitNotice⟩

variable {m : Machine}

lemma next?_of_not_running (h : m.status ≠ .running) : m.next? = none := by
  unfold next?
  split
  case h_1 hs _ => exact absurd hs h
  case h_2 => rfl

lemma reply_eq {r : Reply} {result : Except Failure Unit} {machine : Machine}
    (hr : r.result = result) (hm : r.machine = machine) : r = ⟨result, machine, r.log⟩ := by
  subst hr hm
  rfl

lemma cycle_case (hs : m.status = .running) : StepCase m m.cycle := by
  cases hr : m.cycle.result with
  | error f =>
    rw [reply_eq hr (machine_cycle_of_error hr)]
    exact .failed hs
  | ok u =>
    cases hw : m.memory.word m.pc with
    | error f =>
      rw [cycle_of_word_error hw, result_fail] at hr
      cases hr
    | ok w =>
      cases hd : Instruction.decode? w with
      | none =>
        rw [cycle_of_undecodable hw hd, result_fail] at hr
        cases hr
      | some i =>
        have hn : m.next? = some i := (next?_eq_some_iff m i).2 ⟨hs, w, hw, hd⟩
        rw [cycle_of_decode hw hd, issue] at hr ⊢
        cases he : execute m.pc i m.advance with
        | error f =>
          simp only [he, result_fail] at hr
          cases hr
        | ok done => exact .executed hs hn hw he

theorem step_cases (m : Machine) : StepCase m m.step := by
  cases hs : m.status with
  | running =>
    rw [step_of_running hs]
    exact cycle_case hs
  | awaitingKey x =>
    rw [step_of_awaiting hs, pollKey]
    cases hk : m.keypad.firstPressed with
    | none => exact .idle hs hk
    | some key => exact .resumed hs hk
  | faulted f =>
    rw [step_of_faulted hs]
    exact .stuck hs

theorem keypad_step (m : Machine) : m.step.machine.keypad = m.keypad := by
  have h := step_cases m
  generalize m.step = r at h
  cases h with
  | stuck _ | idle _ _ | resumed _ _ | failed _ => rfl
  | executed _ _ _ he =>
    obtain ⟨hset, -⟩ := execute_flow he
    exact hset.keypad

/-- A fault begins in a step that fails fatally, and is repeated by the steps after it. -/
theorem result_of_status_step {f : Failure} (h : m.step.machine.status = .faulted f) :
    m.step.result = .error f := by
  have hc := step_cases m
  generalize m.step = r at h hc
  cases hc with
  | stuck hs =>
    rw [h] at hs
    cases hs
    rfl
  | idle hs _ => exact nomatch hs.symm.trans h
  | resumed _ _ => cases h
  | @failed g _ hs =>
    cases hg : g.isFatal with
    | true =>
      simp only [hg, if_true] at h
      cases h
      rfl
    | false =>
      simp only [hg, Bool.false_eq_true, if_false] at h
      exact nomatch hs.symm.trans h
  | executed hs _ _ he =>
    obtain ⟨-, hflow⟩ := execute_flow he
    cases hflow with
    | straight _ _ status | skips _ _ _ status | jumps _ _ status | jumpsOffset _ _ status
    | calls _ _ status | returns _ status => exact nomatch (status.trans hs).symm.trans h
    | waits _ heq =>
      subst heq
      cases h

theorem status_step_of_fatal {f : Failure} (h : m.step.result = .error f)
    (hf : f.isFatal = true) : m.step.machine.status = .faulted f := by
  have hc := step_cases m
  generalize m.step = r at h hc
  cases hc with
  | stuck hs =>
    cases h
    exact hs
  | idle _ _ | resumed _ _ | executed _ _ _ _ => cases h
  | failed _ =>
    cases h
    simp only [hf, if_true]

end ChipEight.Machine
