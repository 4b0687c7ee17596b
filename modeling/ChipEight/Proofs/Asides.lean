import ChipEight.Proofs.StepCases

/-! What a step leaves aside. A change of a machine in parts that the record of a failure does not look at
goes along with a step if it leaves the word that is fetched and goes along with the instruction that is
executed. The timers, the keypad, the dialect and memory are such parts; `Overlooks` says which change of
them an instruction does not notice. -/
namespace ChipEight

def Reply.map (f : Machine → Machine) (r : Reply) : Reply := { r with machine := f r.machine }

namespace Machine

/-- The change `f` leaves alone what is looked at before an instruction is executed and after it has
failed. -/
structure Aside (f : Machine → Machine) : Prop where
  status : ∀ m, (f m).status = m.status
  pc : ∀ m, (f m).pc = m.pc
  registerDump : ∀ m, (f m).registerDump = m.registerDump
  advance : ∀ m, (f m).advance = f m.advance
  refused : ∀ m e, { f m with lastFailure := e } = f { m with lastFailure := e }
  faulted : ∀ m e, { f m with status := .faulted e, lastFailure := some e } =
    f { m with status := .faulted e, lastFailure := some e }

/-- A step from `f m` is the one from `m` with `f` carried along; an instruction `i` that is executed may
make `g i` of it. -/
structure GoesAlong (f : Machine → Machine) (g : Instruction → Machine → Machine) (m : Machine) :
    Prop where
  result : (f m).step.result = m.step.result
  log : (f m).step.log = m.step.log
  failed : ∀ e, m.step.result = .error e → (f m).step.machine = f m.step.machine
  executed : ∀ i, m.next? = some i → m.step.result = .ok () →
    (f m).step.machine = g i m.step.machine

variable {m : Machine} {f : Machine → Machine} {g : Instruction → Machine → Machine}

namespace Aside

lemma fail (hf : Aside f) (m : Machine) (e : Failure) : (f m).fail e = (m.fail e).map f := by
  cases he : e.isFatal with
  | true =>
    rw [fail_of_fatal _ he, fail_of_fatal _ he, hf.registerDump, hf.faulted]
    rfl
  | false =>
    rw [fail_of_not_fatal _ he, fail_of_not_fatal _ he, hf.refused]
    rfl

lemma goesAlong_of_fail (hf : Aside f) (n : Machine) (e : Failure) (before : List Event)
    (hstep : m.step = { n.fail e with log := before ++ (n.fail e).log })
    (hstep' : (f m).step = { (f n).fail e with log := before ++ ((f n).fail e).log }) :
    GoesAlong f g m := by
  rw [hf.fail] at hstep'
  refine ⟨?_, ?_, ?_, ?_⟩
  · rw [hstep, hstep']
    rfl
  · rw [hstep, hstep']
    rfl
  · intro _ _
    rw [hstep, hstep']
    rfl
  · intro _ _ hok
    rw [hstep] at hok
    exact nomatch (result_fail n e).symm.trans hok

lemma goesAlong_of_issue (hf : Aside f) (hg : ∀ i done, (g i done).status = done.status)
    {w : UInt16} {i : Instruction} (hn : m.next? = some i) (hstep : m.step = m.issue w i)
    (hstep' : (f m).step = (f m).issue w i)
    (hi : execute m.pc i (f m.advance) = (execute m.pc i m.advance).map (g i)) :
    GoesAlong f g m := by
  rw [issue] at hstep
  rw [issue, hf.advance, hf.pc, hi] at hstep'
  cases he : execute m.pc i m.advance with
  | error e =>
    rw [he] at hstep hstep'
    exact hf.goesAlong_of_fail m.advance e [.executing m.pc w i] hstep hstep'
  | ok done =>
    rw [he] at hstep hstep'
    have hnotice : (g i done).waitNotice = done.waitNotice := by
      unfold waitNotice
      rw [hg]
    refine ⟨?_, ?_, ?_, ?_⟩
    · rw [hstep, hstep']
      rfl
    · rw [hstep, hstep']
      exact congrArg (.executing m.pc w i :: ·) hnotice
    · intro _ herror
      rw [hstep] at herror
      cases herror
    · intro j hj _
      cases hn.symm.trans hj
      rw [hstep, hstep']
      rfl

theorem goesAlong (hf : Aside f) (hg : ∀ i done, (g i done).status = done.status)
    (hs : m.status = .running) (hword : (f m).memory.word m.pc = m.memory.word m.pc)
    (hexecute : ∀ i, m.next? = some i →
      execute m.pc i (f m.advance) = (execute m.pc i m.advance).map (g i)) : GoesAlong f g m := by
  have hstep := step_of_running hs
  have hstep' := step_of_running ((hf.status m).trans hs)
  have hword' : (f m).memory.word (f m).pc = m.memory.word m.pc := by rw [hf.pc, hword]
  cases hw : m.memory.word m.pc with
  | error e =>
    rw [cycle_of_word_error hw] at hstep
    rw [cycle_of_word_error (hword'.trans hw)] at hstep'
    exact hf.goesAlong_of_fail m e [] hstep hstep'
  | ok w =>
    cases hd : Instruction.decode? w with
    | none =>
      rw [cycle_of_undecodable hw hd] at hstep
      rw [cycle_of_undecodable (hword'.trans hw) hd, hf.advance, hf.pc] at hstep'
      exact hf.goesAlong_of_fail m.advance (.unknownOpcode w m.pc) [] hstep hstep'
    | some i =>
      have hn : m.next? = some i := (next?_eq_some_iff m i).2 ⟨hs, w, hw, hd⟩
      rw [cycle_of_decode hw hd] at hstep
      rw [cycle_of_decode (hword'.trans hw) hd] at hstep'
      exact hf.goesAlong_of_issue hg hn hstep hstep' (hexecute i hn)

end Aside

lemma exists_next?_of_ok (hs : m.status = .running) (hok : m.step.result = .ok ()) :
    ∃ i, m.next? = some i := by
  have hcase := step_cases m
  generalize m.step = r at hcase hok
  cases hcase with
  | stuck status | idle status _ | resumed status _ => exact nomatch status.symm.trans hs
  | failed _ => cases hok
  | executed _ next _ _ => exact ⟨_, next⟩

theorem step_of_aside (hf : Aside f)
    (hpoll : ∀ x, m.status = .awaitingKey x → (f m).pollKey x = (m.pollKey x).map f)
    (hword : (f m).memory.word m.pc = m.memory.word m.pc)
    (hexecute : ∀ i, m.next? = some i →
      execute m.pc i (f m.advance) = (execute m.pc i m.advance).map f) :
    (f m).step = m.step.map f := by
  cases hs : m.status with
  | faulted e =>
    rw [step_of_faulted hs, step_of_faulted ((hf.status m).trans hs)]
    rfl
  | awaitingKey x =>
    rw [step_of_awaiting hs, step_of_awaiting ((hf.status m).trans hs)]
    exact hpoll x hs
  | running =>
    have halong : GoesAlong f (fun _ => f) m :=
      hf.goesAlong (fun _ => hf.status) hs hword hexecute
    have hmachine : (f m).step.machine = f m.step.machine := by
      cases hr : m.step.result with
      | error e => exact halong.failed e hr
      | ok u =>
        obtain ⟨i, hi⟩ := exists_next?_of_ok hs hr
        exact halong.executed i hi hr
    rw [reply_eq halong.result hmachine, halong.log]
    rfl

/-- What becomes of the parts of a machine that only some instructions look at. -/
structure Alteration where
  timers : Timers → Timers := id
  keypad : Keypad → Keypad := id
  dialect : Dialect → Dialect := id
  memory : Memory → Memory := id

def alter (a : Alteration) (m : Machine) : Machine :=
  { m with
    timers := a.timers m.timers
    keypad := a.keypad m.keypad
    dialect := a.dialect m.dialect
    memory := a.memory m.memory }

section Alter
variable {a : Alteration}

lemma aside_alter (a : Alteration) : Aside (alter a) :=
  ⟨fun _ => rfl, fun _ => rfl, fun _ => rfl, fun _ => rfl, fun _ _ => rfl, fun _ _ => rfl⟩

/-- The instruction finds what it looks at unchanged, and what it sets does not depend on it. -/
def Overlooks (a : Alteration) (m : Machine) : Instruction → Prop
  | .getDelay _ => (a.timers m.timers).delay = m.timers.delay
  | .setDelay x =>
    a.timers { m.timers with delay := m.v.get x } =
      { a.timers m.timers with delay := m.v.get x }
  | .setSound x =>
    a.timers { m.timers with sound := m.v.get x } =
      { a.timers m.timers with sound := m.v.get x }
  | .skip c => (m.alter a).holds c = m.holds c
  | .waitKey _ => (a.keypad m.keypad).firstPressed = m.keypad.firstPressed
  | .combine op x y => op.compute (a.dialect m.dialect) (m.v.get x) (m.v.get y) =
      op.compute m.dialect (m.v.get x) (m.v.get y)
  | .loadGlyph x => (a.memory m.memory).glyphAddress (m.v.get x) =
      m.memory.glyphAddress (m.v.get x)
  | .draw _ y height => (a.memory m.memory).read m.index (m.visibleRows y height) =
      m.memory.read m.index (m.visibleRows y height)
  | .loadBlock last => (a.memory m.memory).read m.index (last.val + 1) =
      m.memory.read m.index (last.val + 1) ∧ (m.alter a).indexAfter last = m.indexAfter last
  | .storeDecimal x => (a.memory m.memory).write m.index (decimalDigits (m.v.get x)) =
      (m.memory.write m.index (decimalDigits (m.v.get x))).map a.memory
  | .storeBlock last =>
    (a.memory m.memory).write m.index (m.v.toList.take (last.val + 1)) =
        (m.memory.write m.index (m.v.toList.take (last.val + 1))).map a.memory ∧
      (m.alter a).indexAfter last = m.indexAfter last
  | _ => True

lemma pollKey_alter (h : (a.keypad m.keypad).firstPressed = m.keypad.firstPressed)
    (x : Register) : (m.alter a).pollKey x = (m.pollKey x).map (alter a) := by
  have hkeypad : (m.alter a).keypad.firstPressed = m.keypad.firstPressed := h
  rw [pollKey, pollKey, hkeypad]
  cases m.keypad.firstPressed <;> rfl

lemma combine_alter {op : BinaryOp} {x y : Register}
    (h : op.compute (a.dialect m.dialect) (m.v.get x) (m.v.get y) =
      op.compute m.dialect (m.v.get x) (m.v.get y)) :
    (m.alter a).combine op x y = (m.combine op x y).alter a := by
  simp only [combine, alter, ← get_v, h]
  split <;> rfl

theorem execute_alter {i : Instruction} (h : m.Overlooks a i) (pc : UInt16) :
    execute pc i (m.alter a) = (execute pc i m).map (alter a) := by
  cases i with
  | ret =>
    have hstack : (m.alter a).stack = m.stack := rfl
    simp only [execute, hstack]
    cases m.stack.pop? <;> rfl
  | call _ =>
    have hstack : (m.alter a).stack.push? (m.alter a).pc = m.stack.push? m.pc := rfl
    simp only [execute, hstack]
    cases m.stack.push? m.pc <;> rfl
  | skip c =>
    have hholds : (m.alter a).holds c = m.holds c := h
    simp only [execute, skipWhen, hholds]
    cases m.holds c <;> rfl
  | combine op x y => exact congrArg Except.ok (combine_alter h)
  | loadGlyph x =>
    have hglyph : (m.alter a).memory.glyphAddress (m.v.get x) =
        m.memory.glyphAddress (m.v.get x) := h
    exact congrArg (fun index => Except.ok { m.alter a with index := index }) hglyph
  | waitKey x =>
    have hkeypad : (m.alter a).keypad.firstPressed = m.keypad.firstPressed := h
    simp only [execute, hkeypad]
    cases m.keypad.firstPressed <;> rfl
  | getDelay x =>
    have hdelay : (m.alter a).timers.delay = m.timers.delay := h
    simp only [execute, hdelay]
    rfl
  | setDelay x =>
    have htimers : a.timers { m.timers with delay := m.v.get x } =
        { a.timers m.timers with delay := m.v.get x } := h
    simp only [execute, Except.map, alter, ← get_v, htimers]
  | setSound x =>
    have htimers : a.timers { m.timers with sound := m.v.get x } =
        { a.timers m.timers with sound := m.v.get x } := h
    simp only [execute, Except.map, alter, ← get_v, htimers]
  | draw x y height =>
    have hread : (m.alter a).memory.read (m.alter a).index ((m.alter a).visibleRows y height) =
        m.memory.read m.index (m.visibleRows y height) := h
    simp only [execute, hread]
    cases m.memory.read m.index (m.visibleRows y height) <;> rfl
  | storeDecimal x =>
    have hwrite : (m.alter a).memory.write (m.alter a).index
          (decimalDigits ((m.alter a).v.get x)) =
        (m.memory.write m.index (decimalDigits (m.v.get x))).map a.memory := h
    simp only [execute, ← get_v, hwrite]
    cases m.memory.write m.index (decimalDigits (m.v.get x)) <;> rfl
  | storeBlock last =>
    obtain ⟨hwrite, hindex⟩ := h
    have hwrite' : (m.alter a).memory.write (m.alter a).index
          ((m.alter a).v.toList.take (last.val + 1)) =
        (m.memory.write m.index (m.v.toList.take (last.val + 1))).map a.memory := hwrite
    simp only [execute, hwrite', hindex]
    cases m.memory.write m.index (m.v.toList.take (last.val + 1)) <;> rfl
  | loadBlock last =>
    obtain ⟨hread, hindex⟩ := h
    have hread' : (m.alter a).memory.read (m.alter a).index (last.val + 1) =
        m.memory.read m.index (last.val + 1) := hread
    simp only [execute, hread', hindex]
    cases m.memory.read m.index (last.val + 1) <;> rfl
  | _ => rfl

end Alter

end Machine

end ChipEight
