import ChipEight.Proofs.BlockTransfers
import ChipEight.Proofs.TrapFree

/-! Programs that are read from a source. In whatever pieces the bytes come and however often reading is
interrupted, a source that comes to its end stands for the bytes it has delivered, and a source that fails
stands for its failure, whatever it has delivered before. Loading from it is loading those bytes, and it
is done as a whole or not at all. -/
namespace ChipEight

namespace Chunk

def data : Chunk → List UInt8
  | bytes data => data
  | failure _ => []

/-- Reading goes on behind bytes and behind an interruption. -/
def GoesOn : Chunk → Prop
  | bytes data => data ≠ []
  | failure cause => cause.kind = .interrupted

/-- How reading stops: at the end, which an empty piece marks too, or with a failure that lasts. -/
inductive Stops : List Chunk → Option IoFailure → Prop
  | exhausted : Stops [] none
  | empty (rest : List Chunk) : Stops (bytes [] :: rest) none
  | failed {cause : IoFailure} (lasting : cause.kind ≠ .interrupted) (rest : List Chunk) :
      Stops (failure cause :: rest) (some cause)

/-- What a source delivers before reading stops, and how it stops. -/
inductive Delivers : List Chunk → List UInt8 → Option IoFailure → Prop
  | mk (before rest : List Chunk) {stop : Option IoFailure} (goesOn : ∀ c ∈ before, c.GoesOn)
      (stops : Stops rest stop) : Delivers (before ++ rest) (before.flatMap data) stop

def outcome (delivered : List UInt8) : Option IoFailure → Except Failure (List UInt8)
  | none => .ok delivered
  | some cause => .error (.io cause)

lemma readToEnd_of_stops {rest : List Chunk} {stop : Option IoFailure} (h : Stops rest stop) :
    readToEnd rest = outcome [] stop := by
  cases h with
  | exhausted | empty _ => rfl
  | failed lasting rest => exact readToEnd_failure lasting rest

lemma readToEnd_cons {c : Chunk} (h : c.GoesOn) (rest : List Chunk) :
    readToEnd (c :: rest) = (readToEnd rest).map (c.data ++ ·) := by
  cases c with
  | bytes data =>
    cases data with
    | nil => exact absurd rfl h
    | cons b data => rfl
  | failure cause =>
    have hkind : cause.kind = .interrupted := h
    rw [readToEnd, if_pos hkind]
    cases readToEnd rest <;> rfl

theorem readToEnd_of_delivers {chunks : List Chunk} {delivered : List UInt8} {stop : Option IoFailure}
    (h : Delivers chunks delivered stop) : readToEnd chunks = outcome delivered stop := by
  obtain ⟨before, rest, goesOn, stops⟩ := h
  induction before with
  | nil => exact readToEnd_of_stops stops
  | cons c before ih =>
    rw [List.forall_mem_cons] at goesOn
    rw [List.cons_append, readToEnd_cons goesOn.1, ih goesOn.2, List.flatMap_cons]
    cases stop <;> rfl

lemma exists_delivers (chunks : List Chunk) : ∃ delivered stop, Delivers chunks delivered stop := by
  induction chunks with
  | nil => exact ⟨[], none, .mk [] [] (List.forall_mem_nil _) .exhausted⟩
  | cons c chunks ih =>
    have hfirst : c.GoesOn ∨ ∃ stop, Stops (c :: chunks) stop := by
      match c with
      | bytes [] => exact .inr ⟨none, .empty chunks⟩
      | bytes (b :: data) => exact .inl (List.cons_ne_nil b data)
      | failure cause =>
        by_cases hkind : cause.kind = .interrupted
        · exact .inl hkind
        · exact .inr ⟨some cause, .failed hkind chunks⟩
    obtain hgoesOn | ⟨stop, hstops⟩ := hfirst
    · obtain ⟨_, stop, before, rest, goesOn, stops⟩ := ih
      have hbefore : ∀ d ∈ c :: before, d.GoesOn := List.forall_mem_cons.2 ⟨hgoesOn, goesOn⟩
      exact ⟨(c :: before).flatMap data, stop, .mk (c :: before) rest hbefore stops⟩
    · exact ⟨[], stop, .mk [] (c :: chunks) (List.forall_mem_nil _) hstops⟩

lemma delivers_piece {piece : List UInt8} (hpiece : piece ≠ []) {cause : IoFailure}
    (lasting : cause.kind ≠ .interrupted) (rest : List Chunk) :
    Delivers (bytes piece :: failure cause :: rest) piece (some cause) := by
  have hdelivers : Delivers _ ([bytes piece].flatMap data) (some cause) :=
    .mk [bytes piece] (failure cause :: rest) (List.forall_mem_singleton.2 hpiece) (.failed lasting rest)
  rwa [List.flatMap_singleton] at hdelivers

end Chunk

namespace Machine
open Chunk

/-- The program lies in memory, and nothing else is different. -/
structure Accepts (m : Machine) (program : List UInt8) (r : Reply) : Prop where
  result : r.result = .ok ()
  machine : r.machine = m.withMemory { m.memory with bytes := r.machine.memory.bytes }
  inside : ∀ k (hk : k < program.length), r.machine.memory.byte (0x200 + k) = program[k]
  outside : SameOutside 0x200 program.length m.memory r.machine.memory

/-- The failure is the answer, and a copy of it is all that changes the machine. -/
structure TurnsDown (m : Machine) (f : Failure) (r : Reply) : Prop where
  result : r.result = .error f
  machine : r.machine = { m with lastFailure := some f.copy }

variable {m : Machine}

lemma status_withMemory (m : Machine) (M : Memory) : (m.withMemory M).status = m.status := rfl

lemma accepts_load (hm : m.Sound) {program : List UInt8} (h : program.length ≤ 3584) :
    Accepts m program (m.load program) := by
  have hbase : m.memory.programBase.toNat = 0x200 := by
    rw [hm.programBase]
    rfl
  have hload : m.memory.loadProgram program = .ok (m.memory.overlaid 0x200 program) := by
    rw [Memory.loadProgram, if_pos h, Memory.write_of_le _ (by omega), hbase]
    rfl
  simp only [load, hload]
  refine ⟨rfl, rfl, ?_, ?_⟩
  · intro k hk
    exact Memory.byte_overlaid m.memory hk (by omega)
  · exact sameOutside_overlaid m.memory 0x200 program

lemma turnsDown_fail {f : Failure} (h : f.isFatal = false) : TurnsDown m f (m.fail f) := by
  rw [fail_of_not_fatal m h]
  exact ⟨rfl, rfl⟩

lemma turnsDown_load {program : List UInt8} (h : 3584 < program.length) :
    TurnsDown m (.romTooLarge program.length 3584) (m.load program) := by
  have hload : m.memory.loadProgram program = .error (.romTooLarge program.length 3584) :=
    if_neg (Nat.not_le_of_lt h)
  simp only [load, hload]
  exact turnsDown_fail rfl

lemma result_load_eq_ok_iff (hm : m.Sound) (program : List UInt8) :
    (m.load program).result = .ok () ↔ program.length ≤ 3584 := by
  constructor
  · intro hok
    by_contra h
    rw [(turnsDown_load (Nat.lt_of_not_le h)).result] at hok
    cases hok
  · intro h
    exact (accepts_load hm h).result

lemma loadFrom_of_delivers {chunks : List Chunk} {program : List UInt8} (h : Delivers chunks program none) :
    (m.loadFrom chunks).result = (m.load program).result ∧
      (m.loadFrom chunks).machine = (m.load program).machine := by
  rw [loadFrom, Memory.loadProgramFrom_of_readToEnd m.memory (readToEnd_of_delivers h), load]
  cases m.memory.loadProgram program with
  | ok _ => exact ⟨rfl, rfl⟩
  | error _ => exact ⟨rfl, rfl⟩

lemma turnsDown_loadFrom {chunks : List Chunk} {delivered : List UInt8} {cause : IoFailure}
    (h : Delivers chunks delivered (some cause)) : TurnsDown m (.io cause) (m.loadFrom chunks) := by
  have hload : m.memory.loadProgramFrom chunks = .error (.io cause) := by
    simp only [Memory.loadProgramFrom, readToEnd_of_delivers h, outcome, Bind.bind, Except.bind]
  simp only [loadFrom, hload]
  exact turnsDown_fail rfl

/-- Every source delivers some bytes and then ends or fails. If it ends, loading from it answers like
loading the bytes and leaves the same machine: with the program in memory and nothing else changed if
there is room for it, and turned down for its full size if not. If it fails, its failure is the answer
whatever was delivered. Done in place, byte by byte, it comes to the same. -/
theorem loads_whole_or_not_at_all (h : m.Reachable) (chunks : List Chunk) :
    (∃ delivered stop, Delivers chunks delivered stop) ∧
      (∀ program, Delivers chunks program none →
        (m.loadFrom chunks).result = (m.load program).result ∧
          (m.loadFrom chunks).machine = (m.load program).machine ∧
          ((m.load program).result = .ok () ↔ program.length ≤ 3584) ∧
          (program.length ≤ 3584 → Accepts m program (m.load program)) ∧
          (3584 < program.length →
            TurnsDown m (.romTooLarge program.length 3584) (m.load program))) ∧
      (∀ delivered cause, Delivers chunks delivered (some cause) →
        TurnsDown m (.io cause) (m.loadFrom chunks)) ∧
      Stepwise.perform (.loadFrom chunks) m = Stepwise.ofReply (m.loadFrom chunks) := by
  have hm := h.sound
  refine ⟨exists_delivers chunks, ?_, ?_, Stepwise.perform_apply hm (.loadFrom chunks)⟩
  · intro program hd
    obtain ⟨hresult, hmachine⟩ := loadFrom_of_delivers (m := m) hd
    exact ⟨hresult, hmachine, result_load_eq_ok_iff hm program, accepts_load hm, turnsDown_load⟩
  · intro delivered cause hd
    exact turnsDown_loadFrom hd

def returnedFromNowhere : Machine := (start ⟨fun _ => 0, 0⟩ {}).after [.load [0x00, 0xee], .step]

/-- Three bytes with interruptions between them, and one more behind the end. -/
def scattered : List Chunk :=
  [.failure (.source .interrupted "again"), .bytes [1, 2], .failure (.source .interrupted "once more"),
    .bytes [3]] ++ [.bytes [], .bytes [9]]

/-- More bytes than there is room for, and a failure behind them. -/
def cutOff : List Chunk :=
  [.bytes (List.replicate 3585 7), .failure (.source .unexpectedEof "cut off")]

theorem loads_whole_or_not_at_all_scattered :
    returnedFromNowhere.Reachable ∧ returnedFromNowhere.isFaulted = true ∧
      (returnedFromNowhere.loadFrom scattered).result = .ok () ∧
      (returnedFromNowhere.loadFrom scattered).machine.memory.byte 0x202 = 3 ∧
      (returnedFromNowhere.loadFrom scattered).machine.status = returnedFromNowhere.status ∧
      (returnedFromNowhere.loadFrom cutOff).result = .error (.io (.source .unexpectedEof "cut off")) ∧
      (returnedFromNowhere.loadFrom cutOff).machine.memory = returnedFromNowhere.memory := by
  have hreachable : returnedFromNowhere.Reachable := ⟨_, _, _, rfl⟩
  have hfaulted : returnedFromNowhere.isFaulted = true := by decide +kernel
  have hscattered : Delivers scattered [1, 2, 3] none :=
    .mk _ _ (by simp [GoesOn, IoFailure.kind]) (.empty _)
  have hcutOff : Delivers cutOff (List.replicate 3585 7) (some (.source .unexpectedEof "cut off")) :=
    delivers_piece (mt (List.replicate_eq_nil_iff 7).1 (by decide)) (by decide) []
  generalize returnedFromNowhere = m at hreachable hfaulted ⊢
  obtain ⟨-, hends, -, -⟩ := loads_whole_or_not_at_all hreachable scattered
  obtain ⟨-, -, hfails, -⟩ := loads_whole_or_not_at_all hreachable cutOff
  obtain ⟨hresult, hmachine, hok, haccepts, -⟩ := hends [1, 2, 3] hscattered
  have hloaded := haccepts (by decide)
  have hturned := hfails _ _ hcutOff
  refine ⟨hreachable, hfaulted, ?_, ?_, ?_, hturned.result, ?_⟩
  · rw [hresult, hok]
    decide
  · rw [hmachine]
    exact hloaded.inside 2 (by decide)
  · rw [hmachine, hloaded.machine, status_withMemory]
  · rw [hturned.machine]

end Machine

end ChipEight
