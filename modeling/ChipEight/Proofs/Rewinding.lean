import ChipEight.Operation
import ChipEight.Proofs.ControlFlow

/-! Two ways to wait for a key. The rewinding machine has no waiting state: with no key down it takes
its program counter back to the wait and fetches it again at the next step. As long as nothing is loaded
during a wait, the machine with a waiting state answers every operation as the rewinding one does, and
`rewound` turns its state into that of the other after every history. -/
namespace ChipEight.Rewinding
open Machine

/-- As `Machine.execute`, but for a wait with no key down. -/
def execute (pc : UInt16) (i : Instruction) (m : Machine) : Except Failure Machine :=
  match i, m.keypad.firstPressed with
  | .waitKey _, none => .ok { m with pc := m.pc - 2 }
  | i, _ => Machine.execute pc i m

def issue (m : Machine) (w : UInt16) (i : Instruction) : Reply :=
  match execute m.pc i m.advance with
  | .error f =>
    let reply := m.advance.fail f
    { reply with log := .executing m.pc w i :: reply.log }
  | .ok done => ⟨.ok (), done, [.executing m.pc w i]⟩

def cycle (m : Machine) : Reply :=
  match m.memory.word m.pc with
  | .error f => m.fail f
  | .ok w =>
    match Instruction.decode? w with
    | none => m.advance.fail (.unknownOpcode w m.pc)
    | some i => issue m w i

def step (m : Machine) : Reply :=
  match m.status with
  | .faulted f => ⟨.error f, m, []⟩
  | _ => cycle m

def perform (m : Machine) : Operation → Reply
  | .step => step m
  | op => m.perform op

def replies (m : Machine) : List Operation → List Reply
  | [] => []
  | op :: ops => perform m op :: replies (perform m op).machine ops

def after (m : Machine) (ops : List Operation) : Machine :=
  ops.foldl (fun m op => (perform m op).machine) m

/-- The machine with its program counter back on the instruction that it waits at. -/
def rewound (m : Machine) : Machine :=
  match m.status with
  | .awaitingKey _ => { m with pc := m.pc - 2, status := .running }
  | _ => m

def isLoad : Operation → Bool
  | .load _ | .loadFrom _ => true
  | _ => false

def IsWaiting (m : Machine) : Prop := ∃ x, m.status = .awaitingKey x

/-- Nothing is loaded while a wait is pending. -/
def LoadsBetweenWaits (m : Machine) : List Operation → Prop
  | [] => True
  | op :: ops => (isLoad op = true → ¬ IsWaiting m) ∧ LoadsBetweenWaits (m.perform op).machine ops

/-- The instruction of a pending wait can still be fetched. -/
def WaitStands (m : Machine) : Prop :=
  ∀ x, m.status = .awaitingKey x →
    ∃ w, m.memory.word (m.pc - 2) = .ok w ∧ Instruction.decode? w = some (.waitKey x)

variable {m : Machine}

lemma rewound_of_not_waiting (h : ¬ IsWaiting m) : rewound m = m := by
  unfold rewound
  split
  case h_1 x hs => exact absurd ⟨x, hs⟩ h
  case h_2 => rfl

lemma rewound_of_awaiting {x : Register} (h : m.status = .awaitingKey x) :
    rewound m = { m with pc := m.pc - 2, status := .running } := by
  simp only [rewound, h]

lemma waitStands_of_not_waiting (h : ¬ IsWaiting m) : WaitStands m :=
  fun x hs => absurd ⟨x, hs⟩ h

lemma not_waiting_of_running (h : m.status = .running) : ¬ IsWaiting m := by
  intro hw
  obtain ⟨x, hx⟩ := hw
  rw [h] at hx
  cases hx

lemma not_waiting_fail (h : ¬ IsWaiting m) (f : Failure) : ¬ IsWaiting (m.fail f).machine := by
  cases hf : f.isFatal with
  | true =>
    rw [fail_of_fatal m hf]
    rintro ⟨x, ⟨⟩⟩
  | false =>
    rw [fail_of_not_fatal m hf]
    exact h

lemma execute_eq {i : Instruction} (h : ∀ x, i = .waitKey x → m.keypad.firstPressed ≠ none)
    (pc : UInt16) : execute pc i m = Machine.execute pc i m := by
  unfold execute
  split
  case h_1 x hk => exact absurd hk (h x rfl)
  case h_2 => rfl

structure Matches (reference reply : Reply) : Prop where
  result : reference.result = reply.result
  machine : reference.machine = rewound reply.machine
  stands : WaitStands reply.machine

lemma matches_of_eq {reference reply : Reply} (result : reference.result = reply.result)
    (machine : reference.machine = reply.machine) (h : ¬ IsWaiting reply.machine) :
    Matches reference reply where
  result := result
  machine := machine.trans (rewound_of_not_waiting h).symm
  stands := waitStands_of_not_waiting h

lemma sub_two_add_two (a : UInt16) : a - 2 + 2 = a := by
  rw [UInt16.sub_add_cancel]

lemma add_two_sub_two (a : UInt16) : a + 2 - 2 = a := by
  rw [UInt16.add_sub_cancel]

lemma issue_matches_of_going_on (hs : m.status = .running) {w : UInt16} {i : Instruction}
    (h : ∀ x, i = .waitKey x → m.keypad.firstPressed ≠ none) :
    Matches (issue m w i) (m.issue w i) := by
  have he : execute m.pc i m.advance = Machine.execute m.pc i m.advance :=
    execute_eq (m := m.advance) h m.pc
  have hn : ¬ IsWaiting m.advance := not_waiting_of_running hs
  unfold issue Machine.issue
  rw [he]
  cases hx : Machine.execute m.pc i m.advance with
  | error f => exact matches_of_eq rfl rfl (not_waiting_fail hn f)
  | ok done =>
    refine matches_of_eq rfl rfl ?_
    obtain ⟨-, hflow⟩ := execute_flow hx
    cases hflow with
    | waits released _ => exact absurd released (h _ rfl)
    | straight _ _ status | skips _ _ _ status | jumps _ _ status | jumpsOffset _ _ status
    | calls _ _ status | returns _ status => exact not_waiting_of_running (status.trans hs)

lemma issue_matches_of_wait {x : Register} {w : UInt16} (hs : m.status = .running)
    (hw : m.memory.word m.pc = .ok w) (hd : Instruction.decode? w = some (.waitKey x))
    (hk : m.keypad.firstPressed = none) :
    Matches (issue m w (.waitKey x)) (m.issue w (.waitKey x)) := by
  have hk' : m.advance.keypad.firstPressed = none := hk
  have hr : execute m.pc (.waitKey x) m.advance = .ok { m.advance with pc := m.advance.pc - 2 } := by
    simp only [execute, hk']
  have hx : Machine.execute m.pc (.waitKey x) m.advance =
      .ok { m.advance with status := .awaitingKey x } := by
    simp only [Machine.execute, hk']
  unfold issue Machine.issue
  rw [hr, hx]
  refine ⟨rfl, ?_, ?_⟩
  · rw [rewound_of_awaiting rfl, ← hs]
    rfl
  · intro y hy
    cases hy
    have hpc : m.advance.pc - 2 = m.pc := add_two_sub_two m.pc
    exact ⟨w, by rw [hpc]; exact hw, hd⟩

lemma cycle_matches (hs : m.status = .running) : Matches (cycle m) m.cycle := by
  have hn : ¬ IsWaiting m := not_waiting_of_running hs
  have hn' : ¬ IsWaiting m.advance := not_waiting_of_running hs
  cases hw : m.memory.word m.pc with
  | error f =>
    rw [cycle_of_word_error hw]
    simp only [cycle, hw]
    exact matches_of_eq rfl rfl (not_waiting_fail hn f)
  | ok w =>
    cases hd : Instruction.decode? w with
    | none =>
      rw [cycle_of_undecodable hw hd]
      simp only [cycle, hw, hd]
      exact matches_of_eq rfl rfl (not_waiting_fail hn' _)
    | some i =>
      rw [cycle_of_decode hw hd]
      simp only [cycle, hw, hd]
      cases hk : m.keypad.firstPressed with
      | some key => exact issue_matches_of_going_on hs (by simp [hk])
      | none =>
        by_cases hi : ∃ x, i = .waitKey x
        · obtain ⟨x, rfl⟩ := hi
          exact issue_matches_of_wait hs hw hd hk
        · exact issue_matches_of_going_on hs fun x hx => absurd ⟨x, hx⟩ hi

lemma poll_matches {x : Register} (hs : m.status = .awaitingKey x) (h : WaitStands m) :
    Matches (step (rewound m)) (m.pollKey x) := by
  obtain ⟨w, hw, hd⟩ := h x hs
  have hr := rewound_of_awaiting hs
  have hstep : step (rewound m) = issue (rewound m) w (.waitKey x) := by
    simp only [step, cycle, hr, hw, hd]
  have hback : (rewound m).advance = { m with status := .running } := by
    rw [hr]
    simp only [advance, sub_two_add_two]
  rw [hstep, issue, hback]
  cases hk : m.keypad.firstPressed with
  | none =>
    simp only [execute, pollKey, hk]
    refine ⟨rfl, ?_, h⟩
    rw [hr]
  | some key =>
    simp only [execute, Machine.execute, pollKey, hk]
    refine matches_of_eq rfl rfl ?_
    exact not_waiting_of_running rfl

lemma step_matches (h : WaitStands m) : Matches (step (rewound m)) m.step := by
  cases hs : m.status with
  | running =>
    have hn : ¬ IsWaiting m := not_waiting_of_running hs
    rw [rewound_of_not_waiting hn, step_of_running hs]
    simpa only [step, hs] using cycle_matches hs
  | awaitingKey x =>
    rw [step_of_awaiting hs]
    exact poll_matches hs h
  | faulted f =>
    have hn : ¬ IsWaiting m := by
      intro hw
      obtain ⟨x, hx⟩ := hw
      rw [hs] at hx
      cases hx
    rw [rewound_of_not_waiting hn, step_of_faulted hs]
    simp only [step, hs]
    exact matches_of_eq rfl rfl hn

lemma load_matches (hn : ¬ IsWaiting m) (program : List UInt8) :
    Matches ((rewound m).load program) (m.load program) := by
  rw [rewound_of_not_waiting hn]
  refine matches_of_eq rfl rfl ?_
  unfold Machine.load
  split
  · exact hn
  · exact not_waiting_fail hn _

lemma loadFrom_matches (hn : ¬ IsWaiting m) (chunks : List Chunk) :
    Matches ((rewound m).loadFrom chunks) (m.loadFrom chunks) := by
  rw [rewound_of_not_waiting hn]
  refine matches_of_eq rfl rfl ?_
  unfold Machine.loadFrom
  split
  · exact hn
  · exact not_waiting_fail hn _

lemma reset_matches : Matches (rewound m).reset m.reset := by
  have h : (rewound m).resetState = m.resetState := by
    unfold rewound
    split <;> rfl
  exact matches_of_eq rfl h (not_waiting_of_running rfl)

lemma tick_matches (h : WaitStands m) :
    Matches ⟨.ok (), (rewound m).tick, []⟩ ⟨.ok (), m.tick, []⟩ := by
  refine ⟨rfl, ?_, h⟩
  by_cases hw : IsWaiting m
  · obtain ⟨x, hx⟩ := hw
    have hx' : m.tick.status = .awaitingKey x := hx
    rw [rewound_of_awaiting hx, rewound_of_awaiting hx']
    rfl
  · have hw' : ¬ IsWaiting m.tick := hw
    rw [rewound_of_not_waiting hw, rewound_of_not_waiting hw']

lemma setKey_error {p : Keypad} {index : Nat} {pressed : Bool} {f : Failure}
    (h : p.set index pressed = .error f) : f.isFatal = false := by
  unfold Keypad.set at h
  split at h
  · cases h
  · cases h
    rfl

lemma setKey_matches (h : WaitStands m) (index : Nat) (pressed : Bool) :
    Matches ((rewound m).setKey index pressed) (m.setKey index pressed) := by
  by_cases hw : IsWaiting m
  · obtain ⟨x, hx⟩ := hw
    rw [rewound_of_awaiting hx]
    unfold Machine.setKey
    cases hk : m.keypad.set index pressed with
    | ok keypad =>
      exact ⟨rfl, (rewound_of_awaiting (m := { m with keypad := keypad }) hx).symm, h⟩
    | error f =>
      simp only [fail_of_not_fatal _ (setKey_error hk)]
      exact ⟨rfl, (rewound_of_awaiting (m := { m with lastFailure := some f.copy }) hx).symm, h⟩
  · rw [rewound_of_not_waiting hw]
    refine matches_of_eq rfl rfl ?_
    unfold Machine.setKey
    split
    · exact hw
    · exact not_waiting_fail hw _

theorem perform_matches (h : WaitStands m) {op : Operation}
    (hl : isLoad op = true → ¬ IsWaiting m) :
    Matches (perform (rewound m) op) (m.perform op) := by
  cases op with
  | load program => exact load_matches (hl rfl) program
  | loadFrom chunks => exact loadFrom_matches (hl rfl) chunks
  | reset => exact reset_matches
  | step => exact step_matches h
  | tick => exact tick_matches h
  | setKey index pressed => exact setKey_matches h index pressed

theorem history_matches (h : WaitStands m) {ops : List Operation} (hl : LoadsBetweenWaits m ops) :
    (replies (rewound m) ops).map (·.result) = (m.replies ops).map (·.result) ∧
      after (rewound m) ops = rewound (m.after ops) ∧ WaitStands (m.after ops) := by
  induction ops generalizing m with
  | nil => exact ⟨rfl, rfl, h⟩
  | cons op ops ih =>
    have hop := perform_matches h hl.1
    obtain ⟨hresults, hafter, hstands⟩ := ih hop.stands hl.2
    rw [← hop.machine] at hresults hafter
    refine ⟨?_, hafter, hstands⟩
    simp only [replies, Machine.replies, List.map_cons, hop.result, hresults]

/-- What a waiting machine `m` and a rewinding machine `r` show of themselves. -/
structure Agrees (m r : Machine) : Prop where
  v : m.v = r.v
  index : m.index = r.index
  memory : m.memory = r.memory
  stack : m.stack = r.stack
  timers : m.timers = r.timers
  screen : m.screen = r.screen
  keypad : m.keypad = r.keypad
  random : m.random = r.random
  dialect : m.dialect = r.dialect
  lastFailure : m.lastFailure = r.lastFailure
  faulted : ∀ f, m.status = .faulted f ↔ r.status = .faulted f
  never_waiting : ¬ IsWaiting r
  pc : ¬ IsWaiting m → m.pc = r.pc
  waiting : ∀ x, m.status = .awaitingKey x → m.pc.toNat = r.pc.toNat + 2 ∧
    ∃ w, r.memory.word r.pc = .ok w ∧ Instruction.decode? w = some (.waitKey x)

lemma agrees_rewound (h : WaitStands m) : Agrees m (rewound m) := by
  by_cases hw : IsWaiting m
  · obtain ⟨x, hx⟩ := hw
    obtain ⟨w, hword, hd⟩ := h x hx
    rw [rewound_of_awaiting hx]
    have hpc : m.pc.toNat = (m.pc - 2).toNat + 2 := by
      obtain ⟨hle, -⟩ := (Memory.word_eq_ok_iff _ _ _).1 hword
      calc m.pc.toNat = (m.pc - 2 + 2).toNat := by rw [sub_two_add_two]
        _ = (m.pc - 2).toNat + 2 := by
          simp only [UInt16.toNat_add, UInt16.reduceToNat]
          omega
    refine ⟨rfl, rfl, rfl, rfl, rfl, rfl, rfl, rfl, rfl, rfl, ?_, ?_, ?_, ?_⟩
    · simp [hx]
    · rintro ⟨y, ⟨⟩⟩
    · exact fun hn => absurd ⟨x, hx⟩ hn
    · intro y hy
      rw [hx] at hy
      cases hy
      exact ⟨hpc, w, hword, hd⟩
  · rw [rewound_of_not_waiting hw]
    exact ⟨rfl, rfl, rfl, rfl, rfl, rfl, rfl, rfl, rfl, rfl, fun _ => Iff.rfl, hw, fun _ => rfl,
      fun x hx => absurd ⟨x, hx⟩ hw⟩

lemma firstPressed_of_least {p : Keypad} {k : Key} (hk : p.isPressed k.val = true)
    (least : ∀ j < k, p.isPressed j.val = false) : p.firstPressed = some k := by
  unfold Keypad.firstPressed
  rw [List.find?_eq_some_iff_getElem]
  refine ⟨hk, k.val, by simp, by simp, ?_⟩
  intro j hj
  simpa using least ⟨j, by omega⟩ hj

/-- How a pending wait of register `x` comes to its end, or does not. -/
structure WaitEnds (m r : Machine) (x : Register) : Prop where
  resumes : ∀ k : Key, m.keypad.isPressed k.val = true →
    (∀ j < k, m.keypad.isPressed j.val = false) →
    m.step.machine = { m.setRegister x (UInt8.ofNat k.val) with status := .running } ∧
      (step r).machine = m.step.machine
  stays : (∀ k : Key, m.keypad.isPressed k.val = false) →
    m.step.machine = m ∧ (step r).machine = r

lemma waitEnds_rewound (h : WaitStands m) {x : Register} (hx : m.status = .awaitingKey x) :
    WaitEnds m (rewound m) x := by
  have hm := (poll_matches hx h).machine
  rw [← step_of_awaiting hx] at hm
  constructor
  · intro k hk least
    have hf := firstPressed_of_least hk least
    have hstep : m.step.machine =
        { m.setRegister x (UInt8.ofNat k.val) with status := .running } := by
      simp only [step_of_awaiting hx, pollKey, hf]
    refine ⟨hstep, hm.trans (rewound_of_not_waiting (not_waiting_of_running ?_))⟩
    rw [hstep]
  · intro hn
    have hf := (Keypad.firstPressed_eq_none_iff m.keypad).2 hn
    have hstep : m.step.machine = m := by
      simp only [step_of_awaiting hx, pollKey, hf]
    rw [hstep] at hm
    exact ⟨hstep, hm⟩

/-- From the same start the two machines give the same results, agree after every history that loads
nothing during a wait, and end every wait at the same step in the same state. -/
theorem waiting_refines_rewinding (random : RandomSource) (dialect : Dialect)
    (ops : List Operation) (h : LoadsBetweenWaits (start random dialect) ops) :
    (replies (start random dialect) ops).map (·.result) =
        ((start random dialect).replies ops).map (·.result) ∧
      Agrees ((start random dialect).after ops) (after (start random dialect) ops) ∧
      ∀ x, ((start random dialect).after ops).status = .awaitingKey x →
        WaitEnds ((start random dialect).after ops) (after (start random dialect) ops) x := by
  have hn : ¬ IsWaiting (start random dialect) := not_waiting_of_running rfl
  obtain ⟨hresults, hafter, hstands⟩ := history_matches (waitStands_of_not_waiting hn) h
  rw [rewound_of_not_waiting hn] at hresults hafter
  rw [hafter]
  exact ⟨hresults, agrees_rewound hstands, fun x hx => waitEnds_rewound hstands hx⟩

/-- A machine that waits for a key at its first instruction, is asked once more with no key down, and
gets key 3. -/
theorem waiting_refines_rewinding_key_three :
    LoadsBetweenWaits (start ⟨fun _ => 0, 0⟩ {})
        [.load [0xf0, 0x0a], .step, .step, .setKey 3 true] ∧
      ((start ⟨fun _ => 0, 0⟩ {}).after
        [.load [0xf0, 0x0a], .step, .step, .setKey 3 true]).status = .awaitingKey 0 ∧
      Agrees ((start ⟨fun _ => 0, 0⟩ {}).after [.load [0xf0, 0x0a], .step, .step, .setKey 3 true])
        (after (start ⟨fun _ => 0, 0⟩ {}) [.load [0xf0, 0x0a], .step, .step, .setKey 3 true]) ∧
      WaitEnds ((start ⟨fun _ => 0, 0⟩ {}).after [.load [0xf0, 0x0a], .step, .step, .setKey 3 true])
        (after (start ⟨fun _ => 0, 0⟩ {}) [.load [0xf0, 0x0a], .step, .step, .setKey 3 true]) 0 := by
  have h : LoadsBetweenWaits (start ⟨fun _ => 0, 0⟩ {})
      [.load [0xf0, 0x0a], .step, .step, .setKey 3 true] :=
    ⟨fun _ => not_waiting_of_running rfl, nofun, nofun, nofun, trivial⟩
  have hs : ((start ⟨fun _ => 0, 0⟩ {}).after
      [.load [0xf0, 0x0a], .step, .step, .setKey 3 true]).status = .awaitingKey 0 := by
    decide +kernel
  obtain ⟨-, hagrees, hends⟩ := waiting_refines_rewinding ⟨fun _ => 0, 0⟩ {} _ h
  exact ⟨h, hs, hagrees, hends 0 hs⟩

end ChipEight.Rewinding
