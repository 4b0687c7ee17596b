import ChipEight.Proofs.Frames
import ChipEight.Script

/-! How long a key stays down. Frames whose keys are both read and flushed are numbered, and a key that
is read counts for the frame with the next number. The sixteen counters are tied to the list of these
presses: a counter is above `j` just when its key has a press that is younger than the hold by `j`. So
a key is down during a frame exactly when it was pressed in one of the last frames, as many as the hold
says. -/
namespace ChipEight.Console

variable {σ : Type}

/-- How far a frame comes with the keys of its host. -/
inductive Reading
  | unread
  | unflushed (keys : List UInt8)
  | completed (keys : List UInt8)
  deriving DecidableEq

def reading (h : Host σ) (host : σ) : Reading :=
  match (h.peek host).result with
  | .error _ => .unread
  | .ok keys =>
    match (h.flush (h.peek host).state).result with
    | .error _ => .unflushed keys
    | .ok () => .completed keys

/-- The keys of the pad among the numbers that a host reports. -/
def padKeys (keys : List UInt8) : List Key :=
  keys.filterMap fun b => if h : b.toNat < 16 then some ⟨b.toNat, h⟩ else none

lemma mem_padKeys {keys : List UInt8} {k : Key} :
    k ∈ padKeys keys ↔ ∃ b ∈ keys, b.toNat = k.val := by
  unfold padKeys
  rw [List.mem_filterMap]
  constructor
  · rintro ⟨b, hb, he⟩
    split at he
    · cases he
      exact ⟨b, hb, rfl⟩
    · cases he
  · rintro ⟨b, hb, he⟩
    refine ⟨b, hb, ?_⟩
    rw [dif_pos (by omega)]
    exact congrArg some (Fin.ext he)

lemma get_notePress (hold : Nat) (c : Console σ) (b : UInt8) (k : Key) :
    (notePress hold c b).holds.get k = if b.toNat = k.val then hold else c.holds.get k := by
  unfold notePress
  split
  case isTrue hb => exact CallStack.get_set c.holds hb hold k
  case isFalse hb =>
    rw [if_neg (by omega)]

lemma get_foldl_notePress_of_not_mem (hold : Nat) {keys : List UInt8} {k : Key}
    (hk : k ∉ padKeys keys) (c : Console σ) :
    (keys.foldl (notePress hold) c).holds.get k = c.holds.get k := by
  induction keys generalizing c with
  | nil => rfl
  | cons b keys ih =>
    simp only [mem_padKeys, List.mem_cons, exists_eq_or_imp, not_or] at hk ih
    rw [List.foldl_cons, ih hk.2, get_notePress, if_neg hk.1]

lemma get_foldl_notePress_of_mem (hold : Nat) {keys : List UInt8} {k : Key}
    (hk : k ∈ padKeys keys) (c : Console σ) :
    (keys.foldl (notePress hold) c).holds.get k = hold := by
  induction keys generalizing c with
  | nil => nomatch hk
  | cons b keys ih =>
    rw [List.foldl_cons]
    by_cases hlater : k ∈ padKeys keys
    · exact ih hlater _
    · have hb : b.toNat = k.val := by
        simp only [mem_padKeys, List.mem_cons, exists_eq_or_imp] at hk hlater
        exact hk.resolve_right hlater
      rw [get_foldl_notePress_of_not_mem hold hlater, get_notePress, if_pos hb]

/-- How many updates of the keys have been completed, and the presses so far, each with the number of
the update that it counts for. -/
structure Ledger where
  updates : Nat := 0
  presses : List (Nat × Key) := []

namespace Ledger

def press (l : Ledger) (keys : List UInt8) : Ledger :=
  { l with presses := (padKeys keys).map (fun k => (l.updates + 1, k)) ++ l.presses }

def complete (l : Ledger) : Ledger := { l with updates := l.updates + 1 }

def enter (l : Ledger) : Reading → Ledger
  | .unread => l
  | .unflushed keys => l.press keys
  | .completed keys => (l.press keys).complete

lemma mem_press {l : Ledger} {keys : List UInt8} {t : Nat} {k : Key} :
    (t, k) ∈ (l.press keys).presses ↔
      (t = l.updates + 1 ∧ k ∈ padKeys keys) ∨ (t, k) ∈ l.presses := by
  simp only [press, List.mem_append, List.mem_map, Prod.mk.injEq]
  constructor
  · rintro (⟨j, hj, rfl, rfl⟩ | hbefore)
    · exact .inl ⟨rfl, hj⟩
    · exact .inr hbefore
  · rintro (⟨rfl, hk⟩ | hbefore)
    · exact .inl ⟨k, hk, rfl, rfl⟩
    · exact .inr hbefore

/-- The key was pressed for one of the last `hold` updates. -/
def Recent (l : Ledger) (hold : Nat) (k : Key) : Prop :=
  ∃ t, (t, k) ∈ l.presses ∧ t ≤ l.updates ∧ l.updates - t < hold

/-- The counters that go with a ledger between two updates. -/
structure Counts (l : Ledger) (hold : Nat) (holds : Vector Nat 16) : Prop where
  bound : ∀ t k, (t, k) ∈ l.presses → t ≤ l.updates + 1
  lt_get_iff : ∀ (k : Key) (j : Nat), j < holds.get k ↔
    ∃ t, (t, k) ∈ l.presses ∧ l.updates + 1 - t + j < hold

variable {l : Ledger} {hold : Nat} {holds : Vector Nat 16}

lemma counts_start : Counts {} hold (Vector.replicate 16 0) where
  bound := nofun
  lt_get_iff := by
    intro k j
    have hzero : (Vector.replicate 16 0).get k = 0 := Vector.getElem_replicate k.isLt
    simp [hzero]

lemma Counts.press (h : Counts l hold holds) (keys : List UInt8) {holds' : Vector Nat 16}
    (hpressed : ∀ k ∈ padKeys keys, holds'.get k = hold)
    (hother : ∀ k ∉ padKeys keys, holds'.get k = holds.get k) :
    Counts (l.press keys) hold holds' where
  bound := by
    intro t k hm
    rcases mem_press.1 hm with ⟨rfl, -⟩ | hbefore
    · exact Nat.le_refl _
    · exact h.bound t k hbefore
  lt_get_iff := by
    intro k j
    have hu : (l.press keys).updates = l.updates := rfl
    rw [hu]
    by_cases hk : k ∈ padKeys keys
    · rw [hpressed k hk]
      constructor
      · intro hj
        exact ⟨l.updates + 1, mem_press.2 (.inl ⟨rfl, hk⟩), by omega⟩
      · rintro ⟨t, -, ht⟩
        omega
    · rw [hother k hk, h.lt_get_iff]
      simp [mem_press, hk]

lemma Counts.complete (h : Counts l hold holds) :
    Counts l.complete hold (holds.map (· - 1)) where
  bound := by
    intro t k hm
    exact Nat.le_succ_of_le (h.bound t k hm)
  lt_get_iff := by
    intro k j
    have hget : (holds.map (· - 1)).get k = holds.get k - 1 := Vector.getElem_map _ k.isLt
    have hj : j < holds.get k - 1 ↔ j + 1 < holds.get k := by omega
    rw [hget, hj, h.lt_get_iff]
    constructor
    · rintro ⟨t, hm, ht⟩
      have := h.bound t k hm
      exact ⟨t, hm, by simp only [Ledger.complete]; omega⟩
    · rintro ⟨t, hm, ht⟩
      have := h.bound t k hm
      simp only [Ledger.complete] at ht
      exact ⟨t, hm, by omega⟩

lemma Counts.pos_iff_recent (h : Counts l hold holds) (k : Key) :
    0 < holds.get k ↔ l.complete.Recent hold k := by
  rw [h.lt_get_iff]
  constructor
  · rintro ⟨t, hm, ht⟩
    exact ⟨t, hm, h.bound t k hm, ht⟩
  · rintro ⟨t, hm, -, ht⟩
    exact ⟨t, hm, ht⟩

/-- Ledgers with the same presses, in whatever order and however often. -/
structure Alike (l l' : Ledger) : Prop where
  updates : l.updates = l'.updates
  presses : ∀ t k, (t, k) ∈ l.presses ↔ (t, k) ∈ l'.presses

lemma Alike.press {l' : Ledger} (h : Alike l l') {keys keys' : List UInt8}
    (hk : ∀ k, k ∈ padKeys keys ↔ k ∈ padKeys keys') : Alike (l.press keys) (l'.press keys') where
  updates := h.updates
  presses := by
    intro t k
    rw [mem_press, mem_press, h.updates, hk, h.presses]

lemma Alike.complete {l' : Ledger} (h : Alike l l') : Alike l.complete l'.complete where
  updates := congrArg (· + 1) h.updates
  presses := h.presses

lemma Counts.holds_eq {l' : Ledger} {holds' : Vector Nat 16} (h : Counts l hold holds)
    (h' : Counts l' hold holds') (ha : Alike l l') : holds = holds' := by
  have hget (k : Key) : holds.get k = holds'.get k := by
    have hiff (j : Nat) : j < holds.get k ↔ j < holds'.get k := by
      rw [h.lt_get_iff, h'.lt_get_iff, ha.updates]
      simp only [ha.presses]
    apply Nat.le_antisymm
    · exact Nat.le_of_not_lt fun hlt => Nat.lt_irrefl _ ((hiff _).1 hlt)
    · exact Nat.le_of_not_lt fun hlt => Nat.lt_irrefl _ ((hiff _).2 hlt)
  exact Vector.ext fun i hi => hget ⟨i, hi⟩

end Ledger

/-- The console after a frame, whatever the frame came to. -/
def afterFrame (h : Host σ) (s : FrameSettings) (c : Console σ) : Console σ :=
  match frame h s c with
  | .ok () d => d
  | .error _ d => d

/-- The console after `n` frames, those that end in trouble among them. -/
def afterFrames (h : Host σ) (s : FrameSettings) (c : Console σ) : Nat → Console σ
  | 0 => c
  | n + 1 => afterFrame h s (afterFrames h s c n)

def ledger (h : Host σ) (s : FrameSettings) (c : Console σ) : Nat → Ledger
  | 0 => {}
  | n + 1 => (ledger h s c n).enter (reading h (afterFrames h s c n).host)

/-- What a frame leaves of the keys and of the machine, by how far it came. -/
def Leaves (h : Host σ) (s : FrameSettings) (c d : Console σ) : Reading → Prop
  | .unread => d.holds = c.holds ∧ d.machine = c.machine
  | .unflushed keys => d.holds = (c.read h s keys).holds ∧ d.machine = c.machine
  | .completed keys => d.holds = (c.updated h s keys).holds ∧
      updateKeys h s c = .ok () (c.updated h s keys) ∧
      ∃ steps, d.machine = (c.updated h s keys).machine.tick.afterSteps steps

theorem leaves_afterFrame (h : Host σ) (s : FrameSettings) (c : Console σ) :
    Leaves h s c (afterFrame h s c) (reading h c.host) := by
  have hcourse := frame_course h s c
  have hkeys := updateKeys_apply h s c
  unfold afterFrame reading
  generalize frame h s c = result at hcourse
  cases hcourse with
  | unread peek =>
    simp only [peek]
    exact ⟨rfl, rfl⟩
  | unflushed peek flush =>
    simp only [peek, flush]
    exact ⟨rfl, machine_read c h s _⟩
  | unfollowed peek flush _ =>
    simp only [peek, flush] at hkeys ⊢
    exact ⟨rfl, hkeys, 0, rfl⟩
  | faulted past | undrawn past _ | drawn past _ =>
    simp only [past.peek, past.flush] at hkeys ⊢
    exact ⟨past.holds, hkeys, past.steps.exists_steps⟩

lemma holds_updated (c : Console σ) (h : Host σ) (s : FrameSettings) (keys : List UInt8) :
    (c.updated h s keys).holds = (c.read h s keys).holds.map (· - 1) := rfl

lemma Ledger.Counts.read {l : Ledger} {s : FrameSettings} {c : Console σ}
    (hl : l.Counts s.keyHoldFrames c.holds) (h : Host σ) (keys : List UInt8) :
    (l.press keys).Counts s.keyHoldFrames (c.read h s keys).holds :=
  hl.press keys (fun _ hk => get_foldl_notePress_of_mem s.keyHoldFrames hk (c.called h.peek))
    fun _ hk => get_foldl_notePress_of_not_mem s.keyHoldFrames hk (c.called h.peek)

lemma counts_afterFrame {h : Host σ} {s : FrameSettings} {c : Console σ} {l : Ledger}
    (hl : l.Counts s.keyHoldFrames c.holds) :
    (l.enter (reading h c.host)).Counts s.keyHoldFrames (afterFrame h s c).holds := by
  have hleaves := leaves_afterFrame h s c
  generalize reading h c.host = r at hleaves
  cases r with
  | unread =>
    rw [hleaves.1]
    exact hl
  | unflushed keys =>
    rw [hleaves.1]
    exact hl.read h keys
  | completed keys =>
    rw [hleaves.1, holds_updated]
    exact (hl.read h keys).complete

theorem counts_afterFrames (h : Host σ) (s : FrameSettings) (machine : Machine) (host : σ)
    (n : Nat) : (ledger h s (start machine host) n).Counts s.keyHoldFrames
      (afterFrames h s (start machine host) n).holds := by
  induction n with
  | zero => exact Ledger.counts_start
  | succ n ih => exact counts_afterFrame ih

/-- What the next frame of a console does with the keys; `l` is the ledger with that frame in it. -/
structure KeysHeld (h : Host σ) (s : FrameSettings) (c : Console σ) (l : Ledger) : Prop where
  unread : reading h c.host = .unread →
    (afterFrame h s c).holds = c.holds ∧ (afterFrame h s c).machine.keypad = c.machine.keypad
  unflushed : ∀ keys, reading h c.host = .unflushed keys →
    (afterFrame h s c).machine.keypad = c.machine.keypad
  completed : ∀ keys, reading h c.host = .completed keys →
    ∃ d, updateKeys h s c = .ok () d ∧
      (∀ k : Key, d.machine.keypad.isPressed k.val = true ↔ l.Recent s.keyHoldFrames k) ∧
      ∃ steps, (afterFrame h s c).machine = d.machine.tick.afterSteps steps ∧
        ∀ i ≤ steps, (d.machine.tick.afterSteps i).keypad = d.machine.keypad

lemma keypad_updated (c : Console σ) (h : Host σ) (s : FrameSettings) (keys : List UInt8) :
    (c.updated h s keys).machine.keypad = keypadOfHolds (c.read h s keys).holds := rfl

theorem keysHeld {h : Host σ} {s : FrameSettings} {c : Console σ} {l : Ledger}
    (hl : l.Counts s.keyHoldFrames c.holds) :
    KeysHeld h s c (l.enter (reading h c.host)) := by
  have hleaves := leaves_afterFrame h s c
  refine ⟨?_, ?_, ?_⟩
  · intro hr
    rw [hr] at hleaves
    exact ⟨hleaves.1, congrArg Machine.keypad hleaves.2⟩
  · intro keys hr
    rw [hr] at hleaves
    exact congrArg Machine.keypad hleaves.2
  · intro keys hr
    rw [hr] at hleaves ⊢
    obtain ⟨-, hkeys, steps, hsteps⟩ := hleaves
    refine ⟨c.updated h s keys, hkeys, ?_, steps, hsteps, ?_⟩
    · intro k
      rw [keypad_updated, isPressed_keypadOfHolds, decide_eq_true_eq]
      exact (hl.read h keys).pos_iff_recent k
    · intro i _
      exact Machine.keypad_afterSteps _ i

/-- Readings that come equally far with the same keys of the pad. -/
inductive Reading.Alike : Reading → Reading → Prop
  | unread : Alike .unread .unread
  | unflushed {keys keys' : List UInt8} (same : ∀ k, k ∈ padKeys keys ↔ k ∈ padKeys keys') :
      Alike (.unflushed keys) (.unflushed keys')
  | completed {keys keys' : List UInt8} (same : ∀ k, k ∈ padKeys keys ↔ k ∈ padKeys keys') :
      Alike (.completed keys) (.completed keys')

lemma Ledger.Alike.enter {l l' : Ledger} (h : Ledger.Alike l l') {r r' : Reading}
    (hr : r.Alike r') : Ledger.Alike (l.enter r) (l'.enter r') := by
  cases hr with
  | unread => exact h
  | unflushed same => exact h.press same
  | completed same => exact (h.press same).complete

section TwoRuns
variable {τ : Type} {h : Host σ} {h' : Host τ} {s s' : FrameSettings}
  {machine machine' : Machine} {host : σ} {host' : τ} {n : Nat}

/-- The first `n` frames of two runs read the same keys. -/
def ReadAlike (h : Host σ) (h' : Host τ) (s s' : FrameSettings) (c : Console σ) (c' : Console τ)
    (n : Nat) : Prop :=
  ∀ i < n, (reading h (afterFrames h s c i).host).Alike (reading h' (afterFrames h' s' c' i).host)

lemma ledger_alike {c : Console σ} {c' : Console τ} (hr : ReadAlike h h' s s' c c' n) :
    Ledger.Alike (ledger h s c n) (ledger h' s' c' n) := by
  induction n with
  | zero => exact ⟨rfl, fun _ _ => Iff.rfl⟩
  | succ n ih =>
    have hbefore : ReadAlike h h' s s' c c' n := fun i hi => hr i (Nat.lt_succ_of_lt hi)
    exact (ih hbefore).enter (hr n (Nat.lt_succ_self n))

lemma holds_alike (hs : s'.keyHoldFrames = s.keyHoldFrames)
    (hr : ReadAlike h h' s s' (start machine host) (start machine' host') n) :
    (afterFrames h s (start machine host) n).holds =
      (afterFrames h' s' (start machine' host') n).holds := by
  have hcounts' := counts_afterFrames h' s' machine' host' n
  rw [hs] at hcounts'
  exact (counts_afterFrames h s machine host n).holds_eq hcounts' (ledger_alike hr)

lemma keypad_alike (hs : s'.keyHoldFrames = s.keyHoldFrames)
    (hm : machine.keypad = machine'.keypad)
    (hr : ReadAlike h h' s s' (start machine host) (start machine' host') n) :
    (afterFrames h s (start machine host) n).machine.keypad =
      (afterFrames h' s' (start machine' host') n).machine.keypad := by
  induction n with
  | zero => exact hm
  | succ n ih =>
    have hbefore : ReadAlike h h' s s' (start machine host) (start machine' host') n :=
      fun i hi => hr i (Nat.lt_succ_of_lt hi)
    have hlast := hr n (Nat.lt_succ_self n)
    have hleaves := leaves_afterFrame h s (afterFrames h s (start machine host) n)
    have hleaves' := leaves_afterFrame h' s' (afterFrames h' s' (start machine' host') n)
    change (afterFrame h s _).machine.keypad = (afterFrame h' s' _).machine.keypad
    generalize reading h _ = r at hlast hleaves
    generalize reading h' _ = r' at hlast hleaves'
    cases hlast with
    | unread =>
      rw [hleaves.2, hleaves'.2]
      exact ih hbefore
    | unflushed _ =>
      rw [hleaves.2, hleaves'.2]
      exact ih hbefore
    | @completed keys keys' same =>
      obtain ⟨-, -, steps, hsteps⟩ := hleaves
      obtain ⟨-, -, steps', hsteps'⟩ := hleaves'
      have hcounts := (counts_afterFrames h s machine host n).read h keys
      have hcounts' := (counts_afterFrames h' s' machine' host' n).read h' keys'
      rw [hs] at hcounts'
      have hheld := hcounts.holds_eq hcounts' ((ledger_alike hbefore).press same)
      rw [hsteps, hsteps', Machine.keypad_afterSteps, Machine.keypad_afterSteps]
      exact congrArg keypadOfHolds hheld

end TwoRuns

/-- In every frame of a new console whose keys are updated, a key is down from the update to the end of
the frame exactly when it was pressed for one of the last updates, as many as the hold says. Two runs
whose frames read the same keys of the pad, in any order and however often, hold the same keys. -/
theorem key_down_iff_recently_pressed (h : Host σ) (s : FrameSettings) (machine : Machine)
    (host : σ) (n : Nat) :
    KeysHeld h s (afterFrames h s (start machine host) n)
        (ledger h s (start machine host) (n + 1)) ∧
      ∀ {τ : Type} (h' : Host τ) (s' : FrameSettings) (machine' : Machine) (host' : τ),
        s'.keyHoldFrames = s.keyHoldFrames → machine.keypad = machine'.keypad →
        ReadAlike h h' s s' (start machine host) (start machine' host') n →
          (afterFrames h s (start machine host) n).holds =
              (afterFrames h' s' (start machine' host') n).holds ∧
            (afterFrames h s (start machine host) n).machine.keypad =
              (afterFrames h' s' (start machine' host') n).machine.keypad := by
  refine ⟨keysHeld (counts_afterFrames h s machine host n), ?_⟩
  intro τ h' s' machine' host' hs hm hr
  exact ⟨holds_alike hs hr, keypad_alike hs hm hr⟩

/-- A new console at a host that reports keys and fails to flush them at first. -/
def atBusyHost (keys : List UInt8) : Console Script :=
  start (Machine.start ⟨fun _ => 0, 0⟩ {})
    { batches := [keys], failures := [(.flush, "busy")] }

def holdTwo : FrameSettings := { cyclesPerFrame := 1, keyHoldFrames := 2 }

lemma padKeys_three (k : Key) : k ∈ padKeys [3] ↔ k ∈ padKeys [3, 19, 3] := by
  revert k
  decide

/-- Key 3 is read in two frames, of which the second completes, and is down in the third. Reported twice
and with a number that is no key it is held in the same way. -/
theorem key_down_iff_recently_pressed_after_failed_flush :
    (∃ d, updateKeys Script.host holdTwo (afterFrames Script.host holdTwo (atBusyHost [3]) 2) =
        .ok () d ∧ d.machine.keypad.isPressed 3 = true) ∧
      (afterFrames Script.host holdTwo (atBusyHost [3]) 2).holds =
        (afterFrames Script.host holdTwo (atBusyHost [3, 19, 3]) 2).holds := by
  have facts :
      reading Script.host (afterFrames Script.host holdTwo (atBusyHost [3]) 0).host =
        .unflushed [3] ∧
      reading Script.host (afterFrames Script.host holdTwo (atBusyHost [3]) 1).host =
        .completed [3] ∧
      reading Script.host (afterFrames Script.host holdTwo (atBusyHost [3]) 2).host =
        .completed [] ∧
      reading Script.host (afterFrames Script.host holdTwo (atBusyHost [3, 19, 3]) 0).host =
        .unflushed [3, 19, 3] ∧
      reading Script.host (afterFrames Script.host holdTwo (atBusyHost [3, 19, 3]) 1).host =
        .completed [3, 19, 3] ∧
      (ledger Script.host holdTwo (atBusyHost [3]) 3).updates = 2 ∧
      (1, 3) ∈ (ledger Script.host holdTwo (atBusyHost [3]) 3).presses := by
    decide +kernel
  obtain ⟨h0, h1, h2, h0', h1', hupdates, hpress⟩ := facts
  obtain ⟨hheld, halike⟩ := key_down_iff_recently_pressed Script.host holdTwo
    (Machine.start ⟨fun _ => 0, 0⟩ {}) { batches := [[3]], failures := [(.flush, "busy")] } 2
  have hread : ReadAlike Script.host Script.host holdTwo holdTwo (atBusyHost [3])
      (atBusyHost [3, 19, 3]) 2 := by
    intro i hi
    obtain rfl | rfl : i = 0 ∨ i = 1 := by omega
    · rw [h0, h0']
      exact .unflushed padKeys_three
    · rw [h1, h1']
      exact .completed padKeys_three
  obtain ⟨hholds, -⟩ := halike Script.host holdTwo (Machine.start ⟨fun _ => 0, 0⟩ {})
    { batches := [[3, 19, 3]], failures := [(.flush, "busy")] } rfl rfl hread
  obtain ⟨d, hd, hdown, -⟩ := hheld.completed [] h2
  have hrecent : (ledger Script.host holdTwo (atBusyHost [3]) 3).Recent 2 3 :=
    ⟨1, hpress, by omega, by omega⟩
  exact ⟨⟨d, hd, (hdown 3).2 hrecent⟩, hholds⟩

end ChipEight.Console
