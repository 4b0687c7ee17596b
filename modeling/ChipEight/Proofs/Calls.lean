import ChipEight.Proofs.Hosting
import ChipEight.Proofs.StepCases
import Mathlib.Data.List.Infix

/-! Calls and returns as brackets. The stack is as deep as there are calls without their return since
the last reset, and a call that went well is answered by the return that brings the stack back to the
depth it was made at: until then the slots up to its own stay, and that return leads behind it. -/
namespace ChipEight

namespace CallStack

lemma push?_eq_some {s t : CallStack} {a : UInt16} (h : s.push? a = some t) :
    t.depth.val = s.depth.val + 1 ∧
      ∀ k : Fin 16, t.slots.get k = if s.depth.val = k.val then a else s.slots.get k := by
  unfold push? at h
  split at h
  · cases h
    exact ⟨rfl, fun k => get_set _ ‹_› a k⟩
  · cases h

lemma pop?_eq_some {s t : CallStack} {a : UInt16} (h : s.pop? = some (a, t)) :
    s.depth.val = t.depth.val + 1 ∧ t.slots = s.slots ∧
      ∀ k : Fin 16, k.val = t.depth.val → s.slots.get k = a := by
  unfold pop? at h
  split at h
  case isTrue hd =>
    cases h
    refine ⟨by simp only; omega, rfl, ?_⟩
    intro k hk
    simp only at hk
    simp only [Vector.get, ← hk]
    rfl
  case isFalse => cases h

end CallStack

namespace Machine

/-- What a step does to the call stack, told by the instruction that it executes. -/
inductive StackMove
  | enters | leaves | stays
  deriving DecidableEq

def stackMove (m : Machine) : StackMove :=
  match m.next?, m.step.result with
  | some (.call _), .ok () => .enters
  | some .ret, .ok () => .leaves
  | _, _ => .stays

inductive StackStep (m m' : Machine) : StackMove → Prop
  | enters (push : m.stack.push? (m.pc + 2) = some m'.stack) : StackStep m m' .enters
  | leaves (pop : m.stack.pop? = some (m'.pc, m'.stack)) : StackStep m m' .leaves
  | stays (stack : m'.stack = m.stack) : StackStep m m' .stays

variable {m : Machine}

lemma stackMove_eq_enters_iff : m.stackMove = .enters ↔
    (∃ a, m.next? = some (.call a)) ∧ m.step.result = .ok () := by
  unfold stackMove
  generalize m.next? = next, m.step.result = result
  cases next with
  | none => simp
  | some i => cases i <;> cases result <;> simp

lemma stackMove_eq_leaves_iff : m.stackMove = .leaves ↔
    m.next? = some .ret ∧ m.step.result = .ok () := by
  unfold stackMove
  generalize m.next? = next, m.step.result = result
  cases next with
  | none => simp
  | some i => cases i <;> cases result <;> simp

lemma stackMove_eq_stays (hcall : ∀ a, m.next? ≠ some (.call a)) (hret : m.next? ≠ some .ret) :
    m.stackMove = .stays := by
  unfold stackMove
  generalize m.next? = next at hcall hret
  cases next with
  | none => rfl
  | some i =>
    cases i with
    | call a => exact absurd rfl (hcall a)
    | ret => exact absurd rfl hret
    | _ => rfl

lemma stackMove_of_not_running (h : m.status ≠ .running) : m.stackMove = .stays := by
  simp only [stackMove, next?_of_not_running h]

lemma stackMove_of_error {f : Failure} (h : m.step.result = .error f) : m.stackMove = .stays := by
  unfold stackMove
  rw [h]
  generalize m.next? = next
  cases next with
  | none => rfl
  | some i => cases i <;> rfl

lemma stack_execute {m m' : Machine} {pc : UInt16} {i : Instruction}
    (h : execute pc i m = .ok m') (hcall : ∀ a, i ≠ .call a) (hret : i ≠ .ret) :
    m'.stack = m.stack := by
  obtain ⟨-, hflow⟩ := execute_flow h
  cases hflow with
  | straight _ stack _ | skips _ _ stack _ | jumps _ stack _ | jumpsOffset _ stack _ => exact stack
  | @calls a _ _ _ => exact absurd rfl (hcall a)
  | returns _ _ => exact absurd rfl hret
  | waits _ heq =>
    subst heq
    rfl

lemma stackStep_executed {i : Instruction} {done : Machine} (hn : m.next? = some i)
    (he : execute m.pc i m.advance = .ok done) (hr : m.step.result = .ok ()) :
    StackStep m done m.stackMove := by
  by_cases hcall : ∃ a, i = .call a
  · obtain ⟨a, rfl⟩ := hcall
    rw [stackMove_eq_enters_iff.2 ⟨⟨a, hn⟩, hr⟩]
    simp only [execute] at he
    cases hp : m.advance.stack.push? m.advance.pc with
    | none => simp [hp] at he
    | some stack =>
      simp only [hp, Except.ok.injEq] at he
      subst he
      exact .enters hp
  · by_cases hret : i = .ret
    · subst hret
      rw [stackMove_eq_leaves_iff.2 ⟨hn, hr⟩]
      simp only [execute] at he
      cases hp : m.advance.stack.pop? with
      | none => simp [hp] at he
      | some p =>
        simp only [hp, Except.ok.injEq] at he
        subst he
        exact .leaves hp
    · have hcall' : ∀ a, i ≠ .call a := fun a ha => hcall ⟨a, ha⟩
      rw [stackMove_eq_stays (by simpa [hn] using hcall') (by simpa [hn] using hret)]
      have hstack : done.stack = m.advance.stack := stack_execute he hcall' hret
      exact .stays hstack

theorem stackStep (m : Machine) : StackStep m m.step.machine m.stackMove := by
  have hc := step_cases m
  have hexecuted := @stackStep_executed m
  have herror := @stackMove_of_error m
  generalize m.step = r at hc hexecuted herror ⊢
  cases hc with
  | stuck _ | failed _ =>
    rw [herror rfl]
    exact .stays rfl
  | idle hs _ | resumed hs _ =>
    rw [stackMove_of_not_running (by rw [hs]; nofun)]
    exact .stays rfl
  | executed _ hn _ he => exact hexecuted hn he rfl

/-- How many calls and returns have been executed since the last reset. -/
structure CallCount where
  calls : Nat := 0
  returns : Nat := 0

def CallCount.note (n : CallCount) (m : Machine) : Operation → CallCount
  | .reset => {}
  | .step =>
    match m.stackMove with
    | .enters => { n with calls := n.calls + 1 }
    | .leaves => { n with returns := n.returns + 1 }
    | .stays => n
  | _ => n

def callCount (m : Machine) (n : CallCount) : List Operation → CallCount
  | [] => n
  | op :: ops => callCount (m.perform op).machine (n.note m op) ops

/-- The depth of the stack is the number of calls still open. -/
def Tallies (m : Machine) (n : CallCount) : Prop := m.stack.depth.val + n.returns = n.calls

lemma Tallies.step {n : CallCount} (h : Tallies m n) :
    Tallies m.step.machine (n.note m .step) := by
  have hs := stackStep m
  unfold Tallies at h ⊢
  unfold CallCount.note
  generalize m.stackMove = move at hs ⊢
  cases hs with
  | enters push =>
    obtain ⟨hdepth, -⟩ := CallStack.push?_eq_some push
    simp only
    omega
  | leaves pop =>
    obtain ⟨hdepth, -⟩ := CallStack.pop?_eq_some pop
    simp only
    omega
  | stays stack => rw [stack]; exact h

lemma Tallies.perform {n : CallCount} (hm : m.Sound) (h : Tallies m n) (op : Operation) :
    Tallies (m.perform op).machine (n.note m op) := by
  have hhost (hstep : op ≠ .step) (hreset : op ≠ .reset) : Tallies (m.perform op).machine n := by
    unfold Tallies
    rw [(sameProcessor_perform hm hstep hreset).stack]
    exact h
  cases op with
  | step => exact h.step
  | reset => rfl
  | load _ | loadFrom _ | tick | setKey _ _ => exact hhost nofun nofun

theorem Tallies.after {n : CallCount} (hm : m.Sound) (h : Tallies m n) (ops : List Operation) :
    Tallies (m.after ops) (m.callCount n ops) := by
  induction ops generalizing m n with
  | nil => exact h
  | cons op ops ih => exact ih (hm.perform op) (h.perform hm op)

/-- A stack deeper than `d` with the slots up to `d` of another. -/
structure Above (base : CallStack) (d : Nat) (s : CallStack) : Prop where
  deeper : d < s.depth.val
  slots : ∀ k : Fin 16, k.val ≤ d → s.slots.get k = base.slots.get k

lemma Above.push {base s t : CallStack} {d : Nat} {a : UInt16} (h : Above base d s)
    (hp : s.push? a = some t) : Above base d t := by
  obtain ⟨hdepth, hslots⟩ := CallStack.push?_eq_some hp
  have hlt := h.deeper
  refine ⟨by omega, ?_⟩
  intro k hk
  rw [hslots, if_neg (by omega)]
  exact h.slots k hk

lemma Above.pop {base s t : CallStack} {d : Nat} {a : UInt16} (h : Above base d s)
    (hp : s.pop? = some (a, t)) :
    Above base d t ∨ t.depth.val = d ∧ ∀ k : Fin 16, k.val = d → a = base.slots.get k := by
  obtain ⟨hdepth, hslots, haddress⟩ := CallStack.pop?_eq_some hp
  have hlt := h.deeper
  by_cases hd : t.depth.val = d
  · right
    refine ⟨hd, ?_⟩
    intro k hk
    rw [← haddress k (hk.trans hd.symm)]
    exact h.slots k (Nat.le_of_eq hk)
  · left
    refine ⟨by omega, ?_⟩
    rw [hslots]
    exact h.slots

/-- What the operation that brings the stack back to depth `d` is. -/
structure Closes (base : CallStack) (d : Nat) (m : Machine) (op : Operation) : Prop where
  op : op = .step
  move : m.stackMove = .leaves
  depth : m.step.machine.stack.depth.val = d
  address : ∀ k : Fin 16, k.val = d → m.step.machine.pc = base.slots.get k

theorem Above.perform {base : CallStack} {d : Nat} (hm : m.Sound) (h : Above base d m.stack)
    {op : Operation} (hreset : op ≠ .reset) :
    Above base d (m.perform op).machine.stack ∨ Closes base d m op := by
  by_cases hstep : op = .step
  · subst hstep
    have hs := stackStep m
    generalize hmove : m.stackMove = move at hs
    cases hs with
    | enters push => exact .inl (h.push push)
    | leaves pop =>
      obtain habove | ⟨hdepth, haddress⟩ := h.pop pop
      · exact .inl habove
      · exact .inr ⟨rfl, hmove, hdepth, haddress⟩
    | stays stack =>
      left
      change Above base d m.step.machine.stack
      rw [stack]
      exact h
  · left
    rw [(sameProcessor_perform hm hstep hreset).stack]
    exact h

/-- The depth of the stack is not `d` at any moment of a history, its end included. -/
def StaysOff (m : Machine) (d : Nat) (ops : List Operation) : Prop :=
  ∀ before, before <+: ops → (m.after before).stack.depth.val ≠ d

lemma StaysOff.tail {d : Nat} {op : Operation} {ops : List Operation}
    (h : StaysOff m d (op :: ops)) : StaysOff (m.perform op).machine d ops :=
  fun before hb => h (op :: before) (List.cons_prefix_cons.2 ⟨rfl, hb⟩)

theorem Above.after {base : CallStack} {d : Nat} (hm : m.Sound) (h : Above base d m.stack)
    {ops : List Operation} (hops : .reset ∉ ops) (hoff : StaysOff m d ops) :
    Above base d (m.after ops).stack := by
  induction ops generalizing m with
  | nil => exact h
  | cons op ops ih =>
    rw [List.mem_cons, not_or] at hops
    obtain habove | hcloses := h.perform hm (Ne.symm hops.1)
    · exact ih (hm.perform op) habove hops.2 hoff.tail
    · refine absurd hcloses.depth ?_
      obtain rfl := hcloses.op
      exact hoff [.step] (List.prefix_append [.step] ops)

/-- A call that the machine `m` is about to make, up to the return that answers it. -/
structure CallAnswered (m : Machine) : Prop where
  deeper : m.step.machine.stack.depth.val = m.stack.depth.val + 1
  kept : ∀ later, .reset ∉ later → StaysOff m.step.machine m.stack.depth.val later →
    ∀ k : Fin 16, k.val ≤ m.stack.depth.val →
      (m.step.machine.after later).stack.slots.get k = m.step.machine.stack.slots.get k
  back : ∀ before op, .reset ∉ before → op ≠ .reset →
    StaysOff m.step.machine m.stack.depth.val before →
    (m.step.machine.after (before ++ [op])).stack.depth.val = m.stack.depth.val →
      op = .step ∧ (m.step.machine.after before).next? = some .ret ∧
        (m.step.machine.after before).step.result = .ok () ∧
        (m.step.machine.after (before ++ [op])).pc.toNat = m.pc.toNat + 2

theorem callAnswered (hm : m.Sound) (hmove : m.stackMove = .enters) : CallAnswered m := by
  have hs := stackStep m
  rw [hmove] at hs
  obtain ⟨push⟩ := hs
  obtain ⟨hdepth, hslots⟩ := CallStack.push?_eq_some push
  have habove : Above m.step.machine.stack m.stack.depth.val m.step.machine.stack :=
    ⟨by omega, fun _ _ => rfl⟩
  refine ⟨hdepth, ?_, ?_⟩
  · intro later hlater hoff k hk
    exact (habove.after hm.step hlater hoff).slots k hk
  · intro before op hbefore hreset hoff hback
    have hnow := habove.after hm.step hbefore hoff
    rw [after_snoc] at hback ⊢
    obtain hdeeper | hcloses := hnow.perform (hm.step.after before) hreset
    · exact absurd hback (Nat.ne_of_gt hdeeper.deeper)
    · obtain rfl := hcloses.op
      obtain ⟨hnext, hresult⟩ := stackMove_eq_leaves_iff.1 hcloses.move
      obtain ⟨⟨a, hcall⟩, -⟩ := stackMove_eq_enters_iff.1 hmove
      obtain ⟨w, hw, -⟩ := step_of_next? hcall
      have hroom : m.stack.depth.val < 16 := by
        have := m.step.machine.stack.depth.isLt
        omega
      have haddress := hcloses.address ⟨m.stack.depth.val, hroom⟩ rfl
      rw [hslots, if_pos rfl] at haddress
      refine ⟨rfl, hnext, hresult, ?_⟩
      change ((m.step.machine.after before).step.machine).pc.toNat = _
      rw [haddress]
      exact (toNat_pc_advance hw).1

/-- After every history the depth is the number of calls less that of returns since the last reset, and
every call that goes well is answered. -/
theorem calls_nest (random : RandomSource) (dialect : Dialect) (ops : List Operation) :
    ((start random dialect).after ops).stack.depth.val +
        ((start random dialect).callCount {} ops).returns =
      ((start random dialect).callCount {} ops).calls ∧
    ∀ a, ((start random dialect).after ops).next? = some (.call a) →
      ((start random dialect).after ops).step.result = .ok () →
        CallAnswered ((start random dialect).after ops) := by
  have hstart := sound_start random dialect
  have hzero : Tallies (start random dialect) {} := rfl
  refine ⟨hzero.after hstart ops, ?_⟩
  intro a hnext hresult
  exact callAnswered (hstart.after ops) (stackMove_eq_enters_iff.2 ⟨⟨a, hnext⟩, hresult⟩)

/-- A program that calls 0x204, which calls 0x208, which returns at once. -/
def nestedCalls : List Operation :=
  [.load [0x22, 0x04, 0x00, 0x00, 0x22, 0x08, 0x00, 0xee, 0x00, 0xee]]

/-- The inner call and its return come in between, and a key that there is not. -/
theorem calls_nest_two_deep :
    CallAnswered ((start ⟨fun _ => 0, 0⟩ {}).after nestedCalls) ∧
      (((start ⟨fun _ => 0, 0⟩ {}).after nestedCalls).step.machine.after
        ([.step, .setKey 16 true, .step] ++ [.step])).pc.toNat = 0x202 := by
  have facts : ((start ⟨fun _ => 0, 0⟩ {}).after nestedCalls).next? = some (.call 0x204) ∧
      ((start ⟨fun _ => 0, 0⟩ {}).after nestedCalls).step.result = .ok () ∧
      ((start ⟨fun _ => 0, 0⟩ {}).after nestedCalls).pc.toNat = 0x200 ∧
      ((start ⟨fun _ => 0, 0⟩ {}).after nestedCalls).stack.depth.val = 0 ∧
      (∀ before ∈ List.inits [.step, .setKey 16 true, .step],
        (((start ⟨fun _ => 0, 0⟩ {}).after nestedCalls).step.machine.after before).stack.depth.val ≠
          0) ∧
      (((start ⟨fun _ => 0, 0⟩ {}).after nestedCalls).step.machine.after
        ([.step, .setKey 16 true, .step] ++ [.step])).stack.depth.val = 0 := by
    decide +kernel
  obtain ⟨hnext, hresult, hpc, hdepth, hoff, hback⟩ := facts
  obtain ⟨-, hanswered⟩ := calls_nest ⟨fun _ => 0, 0⟩ {} nestedCalls
  have hcall := hanswered _ hnext hresult
  have hstays : StaysOff ((start ⟨fun _ => 0, 0⟩ {}).after nestedCalls).step.machine
      ((start ⟨fun _ => 0, 0⟩ {}).after nestedCalls).stack.depth.val
      [.step, .setKey 16 true, .step] := by
    intro before hb
    rw [hdepth]
    exact hoff before ((List.mem_inits _ _).2 hb)
  obtain ⟨-, -, -, hend⟩ :=
    hcall.back [.step, .setKey 16 true, .step] .step (by simp) nofun hstays
      (hback.trans hdepth.symm)
  rw [hpc] at hend
  exact ⟨hcall, hend⟩

end Machine

end ChipEight
