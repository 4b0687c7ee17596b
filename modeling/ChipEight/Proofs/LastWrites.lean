import ChipEight.Proofs.MemoryReads
import ChipEight.Proofs.TrapFree
import Mathlib.Data.List.Induction

/-! What memory holds after any history of its own: each byte is the one that was put there last since the
latest reset, and where nothing was put, it is what the reset left, a byte of the font or zero. A range that
leaves memory is refused and changes nothing. All of it is done in place, byte by byte, with an array and
with sizes of 64 bits; neither is ever left. -/
namespace ChipEight

namespace Memory

/-- What can be done to a memory, as data. -/
inductive Access
  | write (address : UInt16) (data : List UInt8)
  | fill (address : UInt16) (length : Nat) (b : UInt8)
  | load (program : List UInt8)
  | setProgramBase (address : UInt16)
  | setFontBase (address : UInt16)
  | reset

/-- An answer and the memory after it, which is the old one after a refusal. -/
def answer (M : Memory) : Except Failure Memory → Except Failure Unit × Memory
  | .ok N => (.ok (), N)
  | .error f => (.error f, M)

def perform (M : Memory) : Access → Except Failure Unit × Memory
  | .write address data => M.answer (M.write address data)
  | .fill address length b => M.answer (M.fill address length b)
  | .load program => M.answer (M.loadProgram program)
  | .setProgramBase address => (.ok (), { M with programBase := address })
  | .setFontBase address => (.ok (), { M with fontBase := address })
  | .reset => (.ok (), M.reset)

def after (M : Memory) (ops : List Access) : Memory :=
  ops.foldl (fun M op => (M.perform op).2) M

def byteOf? (start : Nat) (data : List UInt8) (a : Nat) : Option UInt8 :=
  if start ≤ a then data[a - start]? else none

/-- The byte that an operation puts at an address, if it goes well and its range covers the address. -/
def puts? (M : Memory) (op : Access) (a : Nat) : Option UInt8 :=
  match op with
  | .write address data =>
    if address.toNat + data.length ≤ 4096 then byteOf? address.toNat data a else none
  | .fill address length b =>
    if address.toNat + length ≤ 4096 ∧ address.toNat ≤ a ∧ a < address.toNat + length then some b
    else none
  | .load program =>
    if program.length ≤ 3584 ∧ M.programBase.toNat + program.length ≤ 4096 then
      byteOf? M.programBase.toNat program a
    else none
  | .setProgramBase _ | .setFontBase _ | .reset => none

/-- The byte that the last of some operations to do so has put at an address. -/
def lastPut? (M : Memory) (a : Nat) : List Access → Option UInt8
  | [] => none
  | op :: ops => ((M.perform op).2.lastPut? a ops).or (M.puts? op a)

/-- What a reset leaves at an address. -/
def fontByte (base : UInt16) (a : Nat) : UInt8 := (byteOf? base.toNat font a).getD 0

/-- The latest reset of a history is the last operation of `before`, or there is none and `before` is
empty. -/
structure SplitAtReset (ops before later : List Access) : Prop where
  append : ops = before ++ later
  ends : before = [] ∨ ∃ earlier, before = earlier ++ [.reset]
  noReset : .reset ∉ later

/-- A byte by the history of a fresh memory: the one put there last since the latest reset, or else what
that reset left, with the font where it had to go by then. -/
def recalled (before later : List Access) (a : Nat) : UInt8 :=
  ((fresh.after before).lastPut? a later).getD (fontByte (fresh.after before).fontBase a)

variable {M : Memory}

lemma byte_overlaid_eq (start : Nat) (data : List UInt8) {a : Nat} (ha : a < 4096) :
    (M.overlaid start data).byte a = (byteOf? start data a).getD (M.byte a) := by
  rw [byte_of_lt _ ha, byte_of_lt _ ha, overlaid, getElem_put, byteOf?]
  split <;> rfl

lemma byteOf?_replicate (start length : Nat) (b : UInt8) (a : Nat) :
    byteOf? start (List.replicate length b) a =
      if start ≤ a ∧ a < start + length then some b else none := by
  rw [byteOf?, List.getElem?_replicate]
  split
  case isTrue hle =>
    have hlt : a - start < length ↔ start ≤ a ∧ a < start + length := by omega
    simp only [hlt]
  case isFalse hle => rw [if_neg fun h => hle h.1]

lemma fill_eq_write (M : Memory) (address : UInt16) (length : Nat) (b : UInt8) :
    M.fill address length b = M.write address (List.replicate length b) := by
  rw [fill, write, List.length_replicate]
  cases check address length <;> rfl

/-- Whether a range is refused or not, at each address there is afterwards what has been put there or what
there was before. -/
lemma byte_answer_write (M : Memory) (address : UInt16) (data : List UInt8) {a : Nat} (ha : a < 4096) :
    (M.answer (M.write address data)).2.byte a =
      ((if address.toNat + data.length ≤ 4096 then byteOf? address.toNat data a else none).getD
        (M.byte a)) := by
  by_cases h : address.toNat + data.length ≤ 4096
  · rw [if_pos h, write_of_le M h]
    exact byte_overlaid_eq _ _ ha
  · rw [if_neg h, write_of_gt M (Nat.lt_of_not_le h)]
    rfl

lemma byte_perform {op : Access} (hop : op ≠ .reset) {a : Nat} (ha : a < 4096) :
    (M.perform op).2.byte a = (M.puts? op a).getD (M.byte a) := by
  cases op with
  | write address data => exact byte_answer_write M address data ha
  | fill address length b =>
    rw [perform, fill_eq_write, byte_answer_write M _ _ ha, List.length_replicate,
      byteOf?_replicate, puts?, ← ite_and]
  | load program =>
    rw [perform, loadProgram, puts?, ite_and]
    split
    case isTrue hsize => exact byte_answer_write M _ _ ha
    case isFalse hsize => rfl
  | setProgramBase _ | setFontBase _ => rfl
  | reset => exact absurd rfl hop

theorem byte_after {ops : List Access} (hops : .reset ∉ ops) {a : Nat} (ha : a < 4096) :
    (M.after ops).byte a = (M.lastPut? a ops).getD (M.byte a) := by
  induction ops generalizing M with
  | nil => rfl
  | cons op ops ih =>
    rw [List.mem_cons, not_or] at hops
    have hrest : (M.after (op :: ops)).byte a = ((M.perform op).2.after ops).byte a := rfl
    rw [hrest, ih hops.2, byte_perform (Ne.symm hops.1) ha, lastPut?]
    cases (M.perform op).2.lastPut? a ops <;> rfl

lemma byte_reset (M : Memory) {a : Nat} (ha : a < 4096) :
    M.reset.byte a = fontByte M.reset.fontBase a := by
  rw [byte_of_lt _ ha, reset, fontByte, byteOf?]
  simp only [getElem_put, Vector.getElem_replicate]
  split <;> rfl

lemma after_append (M : Memory) (before later : List Access) :
    M.after (before ++ later) = (M.after before).after later :=
  List.foldl_append

lemma byte_of_ends {before : List Access}
    (h : before = [] ∨ ∃ earlier, before = earlier ++ [.reset]) {a : Nat} (ha : a < 4096) :
    (fresh.after before).byte a = fontByte (fresh.after before).fontBase a := by
  obtain rfl | ⟨earlier, rfl⟩ := h
  · have hfresh : fresh.after [] = reset ⟨Vector.replicate 4096 0, 0x200, 0x050⟩ := rfl
    rw [hfresh, byte_reset _ ha]
  · have hreset : fresh.after (earlier ++ [.reset]) = (fresh.after earlier).reset :=
      after_append _ _ _
    rw [hreset, byte_reset _ ha]

theorem byte_eq_recalled {ops before later : List Access} (h : SplitAtReset ops before later) {a : Nat}
    (ha : a < 4096) : (fresh.after ops).byte a = recalled before later a := by
  rw [h.append, after_append, byte_after h.noReset ha, byte_of_ends h.ends ha, recalled]

lemma exists_splitAtReset (ops : List Access) : ∃ before later, SplitAtReset ops before later := by
  induction ops using List.reverseRecOn with
  | nil => exact ⟨[], [], rfl, .inl rfl, List.not_mem_nil⟩
  | append_singleton ops op ih =>
    by_cases hop : op = .reset
    · subst hop
      exact ⟨ops ++ [.reset], [], (List.append_nil _).symm, .inr ⟨ops, rfl⟩, List.not_mem_nil⟩
    · obtain ⟨before, later, rfl, hends, hreset⟩ := ih
      refine ⟨before, later ++ [op], List.append_assoc _ _ _, hends, ?_⟩
      simp [hreset, Ne.symm hop]

/-- What a caller has to see to: sizes that a machine can address, and a reset only while the font has
room where it goes. -/
def Admits (M : Memory) : Access → Prop
  | .write _ data => data.length < 2 ^ 53
  | .fill _ length _ => length < 2 ^ 53
  | .load program => program.length < 2 ^ 53
  | .setProgramBase _ | .setFontBase _ => True
  | .reset => M.fontBase.toNat + font.length ≤ 4096

def AdmitsAll (M : Memory) : List Access → Prop
  | [] => True
  | op :: ops => M.Admits op ∧ (M.perform op).2.AdmitsAll ops

instance (M : Memory) (op : Access) : Decidable (M.Admits op) :=
  match op with
  | .write _ _ | .fill _ _ _ | .load _ => Nat.decLt _ _
  | .setProgramBase _ | .setFontBase _ => .isTrue trivial
  | .reset => Nat.decLe _ _

instance decidableAdmitsAll (M : Memory) : ∀ ops, Decidable (M.AdmitsAll ops)
  | [] => .isTrue trivial
  | op :: ops =>
    have := decidableAdmitsAll (M.perform op).2 ops
    inferInstanceAs (Decidable (M.Admits op ∧ (M.perform op).2.AdmitsAll ops))

end Memory

namespace Stepwise
open ChipEight.Action

/-- An operation on the memory of a machine, in place and byte by byte. -/
def access : Memory.Access → Action Unit
  | .write address data => overwrite address data
  | .fill address length b => do
    checkRange address length
    setBytes address.toNat (List.replicate length b)
  | .load program => loadProgram program
  | .setProgramBase address => modify fun m => { m with memory.programBase := address }
  | .setFontBase address => modify fun m => { m with memory.fontBase := address }
  | .reset => do
    setBytes 0 (List.replicate 4096 0)
    let base ← get fun m => m.memory.fontBase
    setBytes base.toNat font

/-- Any operations, one after the other and each on what the one before has left; there is no machine if
one of them is trapped. -/
def accesses : List Memory.Access → Machine → Option Machine
  | [], m => some m
  | op :: ops, m =>
    match access op m with
    | .trapped => none
    | .failed _ m => accesses ops m
    | .done _ m => accesses ops m

/-- What an action on the memory of a machine comes to that gives this answer. -/
def ofAnswer (m : Machine) (answer : Except Failure Unit × Memory) : Outcome Unit :=
  match answer.1 with
  | .ok () => .done () (m.withMemory answer.2)
  | .error f => .failed f (m.withMemory answer.2)

variable {m : Machine}

lemma ofAnswer_answer (m : Machine) (result : Except Failure Memory) :
    ofAnswer m (m.memory.answer result) =
      match result with
      | .ok memory => .done () { m with memory := memory }
      | .error f => .failed f m := by
  cases result <;> rfl

lemma fill_apply (m : Machine) (address : UInt16) {length : Nat} (hl : length < 2 ^ 53) (b : UInt8) :
    access (.fill address length b) m = ofAnswer m (m.memory.perform (.fill address length b)) := by
  have hlength : (List.replicate length b).length < 2 ^ 53 := by rwa [List.length_replicate]
  have haccess : access (.fill address length b) = overwrite address (List.replicate length b) := by
    rw [overwrite, List.length_replicate]
    rfl
  rw [Memory.perform, Memory.fill_eq_write, ofAnswer_answer, haccess]
  exact overwrite_apply m address hlength

lemma put_zeroes (bytes : Vector UInt8 4096) {size : Nat} (hsize : size = 4096) :
    Memory.put bytes 0 (List.replicate size 0) = Vector.replicate 4096 0 := by
  ext i hi
  have hlt : i < size := hsize ▸ hi
  rw [Memory.getElem_put _ _ _ hi, Vector.getElem_replicate, if_pos (Nat.zero_le i), Nat.sub_zero,
    List.getElem?_replicate, if_pos hlt, Option.getD_some]

lemma clear_apply (m : Machine) {size : Nat} (hsize : size = 4096) :
    setBytes 0 (List.replicate size 0) m =
      .done () { m with memory := { m.memory with bytes := Vector.replicate 4096 0 } } := by
  have hzeroes : 0 + (List.replicate size (0 : UInt8)).length ≤ 4096 := by
    rw [List.length_replicate, Nat.zero_add, hsize]
  rw [setBytes_of_le hzeroes, put_zeroes _ hsize]

/-- The zeroes stay one list here: unfolding it would mean to count them. -/
lemma reset_memory_apply (m : Machine) (hfont : m.memory.fontBase.toNat + font.length ≤ 4096) :
    access .reset m = ofAnswer m (m.memory.perform .reset) :=
  (bind_of_done (clear_apply m rfl)).trans (setBytes_of_le hfont)

theorem access_apply (m : Machine) {op : Memory.Access} (hop : m.memory.Admits op) :
    access op m = ofAnswer m (m.memory.perform op) := by
  cases op with
  | write address data =>
    rw [Memory.perform, ofAnswer_answer]
    exact overwrite_apply m address hop
  | fill address length b => exact fill_apply m address hop b
  | load program =>
    rw [Memory.perform, ofAnswer_answer]
    exact loadProgram_apply program
  | setProgramBase _ | setFontBase _ => rfl
  | reset => exact reset_memory_apply m hop

theorem accesses_apply (m : Machine) {M : Memory} {ops : List Memory.Access} (hops : M.AdmitsAll ops) :
    accesses ops (m.withMemory M) = some (m.withMemory (M.after ops)) := by
  induction ops generalizing M with
  | nil => rfl
  | cons op ops ih =>
    obtain ⟨hop, hrest⟩ := hops
    have hfirst := access_apply (m.withMemory M) hop
    rw [accesses, hfirst, ofAnswer]
    cases ((m.withMemory M).memory.perform op).1 <;> exact ih hrest

end Stepwise

namespace Memory

/-- A range inside memory is accepted, and any other refused with the first address past the end. -/
def Ranged {α : Type} (address : UInt16) (length : Nat) (result : Except Failure α) : Prop :=
  ((∃ a, result = .ok a) ↔ address.toNat + length ≤ 4096) ∧
    (4096 < address.toNat + length → result = .error (.outOfBounds (max address.toNat 4096)))

/-- What holds of a memory `M` that a fresh one has come to by the operations `ops`. -/
structure Faithful (ops : List Access) (M : Memory) : Prop where
  size : M.bytes.toList.length = 4096
  inPlace : ∀ m : Machine, Stepwise.accesses ops (m.withMemory fresh) = some (m.withMemory M)
  next : ∀ (m : Machine) (op : Access), M.Admits op →
    Stepwise.access op (m.withMemory M) = Stepwise.ofAnswer m (M.perform op)
  refused : ∀ op f, (M.perform op).1 = .error f → (M.perform op).2 = M
  write : ∀ address data, Ranged address data.length (M.perform (.write address data)).1
  fill : ∀ address length b, Ranged address length (M.perform (.fill address length b)).1
  read : ∀ address length, Ranged address length (M.read address length)
  slice : ∀ (m : Machine) address length, length < 2 ^ 53 →
    Action.slice address length (m.withMemory M) =
      match M.read address length with
      | .ok data => .done data (m.withMemory M)
      | .error f => .failed f (m.withMemory M)
  word : ∀ address, Ranged address 2 (M.word address)
  tooLarge : ∀ program, ((∃ size max, (M.perform (.load program)).1 = .error (.romTooLarge size max)) ↔
    3584 < program.length) ∧ (3584 < program.length →
      (M.perform (.load program)).1 = .error (.romTooLarge program.length 3584))
  load : ∀ program, program.length ≤ 3584 →
    M.perform (.load program) = M.perform (.write M.programBase program)
  split : ∃ before later, SplitAtReset ops before later
  bytes : ∀ before later, SplitAtReset ops before later → ∀ address length data,
    M.read address length = .ok data →
      data = (List.range' address.toNat length).map (recalled before later)
  wordBytes : ∀ before later, SplitAtReset ops before later → ∀ address w, M.word address = .ok w →
    w.toNat = 256 * (recalled before later address.toNat).toNat +
      (recalled before later (address.toNat + 1)).toNat

variable {M : Memory}

lemma ranged_check (address : UInt16) (length : Nat) : Ranged address length (check address length) := by
  refine ⟨?_, check_of_gt⟩
  rw [← check_eq_ok_iff]
  exact ⟨fun ⟨_, h⟩ => h, fun h => ⟨(), h⟩⟩

lemma Ranged.map {α β : Type} {address : UInt16} {length : Nat} {result : Except Failure α}
    (h : Ranged address length result) (f : α → β) : Ranged address length (result.map f) := by
  obtain ⟨hok, herror⟩ := h
  constructor
  · rw [← hok]
    cases result <;> simp [Except.map]
  · intro hgt
    rw [herror hgt]
    rfl

lemma ranged_answer_write (M : Memory) (address : UInt16) (data : List UInt8) :
    Ranged address data.length (M.answer (M.write address data)).1 := by
  have hanswer : (M.answer (M.write address data)).1 = (M.write address data).map fun _ => () := by
    cases M.write address data <;> rfl
  rw [hanswer, write_eq_map]
  exact ((ranged_check _ _).map _).map _

lemma refused_answer {result : Except Failure Memory} {f : Failure} (h : (M.answer result).1 = .error f) :
    (M.answer result).2 = M := by
  cases result with
  | ok N => cases h
  | error g => rfl

lemma perform_refused {op : Access} {f : Failure} (h : (M.perform op).1 = .error f) :
    (M.perform op).2 = M := by
  cases op with
  | write _ _ | fill _ _ _ | load _ => exact refused_answer h
  | setProgramBase _ | setFontBase _ | reset => cases h

lemma ranged_read (M : Memory) (address : UInt16) (length : Nat) :
    Ranged address length (M.read address length) := by
  have hread : M.read address length =
      (check address length).map fun _ => (List.range' address.toNat length).map M.byte := by
    rw [read]
    cases check address length <;> rfl
  rw [hread]
  exact (ranged_check _ _).map _

lemma ranged_word (M : Memory) (address : UInt16) : Ranged address 2 (M.word address) := by
  have hword : M.word address = (check address 2).map fun _ => M.wordAt address.toNat := by
    rw [word]
    cases check address 2 <;> rfl
  rw [hword]
  exact (ranged_check _ _).map _

lemma perform_load_of_le (M : Memory) {program : List UInt8} (h : program.length ≤ 3584) :
    M.perform (.load program) = M.perform (.write M.programBase program) := by
  have hload : M.loadProgram program = M.write M.programBase program := if_pos h
  rw [perform, perform, hload]

lemma perform_load_of_gt (M : Memory) {program : List UInt8} (h : 3584 < program.length) :
    (M.perform (.load program)).1 = .error (.romTooLarge program.length 3584) := by
  have hload : M.loadProgram program = .error (.romTooLarge program.length 3584) :=
    if_neg (Nat.not_le_of_lt h)
  rw [perform, hload]
  rfl

lemma tooLarge_iff (M : Memory) (program : List UInt8) :
    (∃ size max, (M.perform (.load program)).1 = .error (.romTooLarge size max)) ↔
      3584 < program.length := by
  constructor
  · rintro ⟨size, max, h⟩
    apply Nat.lt_of_not_le
    intro hle
    rw [perform_load_of_le M hle] at h
    obtain ⟨hok, herror⟩ := ranged_answer_write M M.programBase program
    by_cases hfits : M.programBase.toNat + program.length ≤ 4096
    · obtain ⟨a, ha⟩ := hok.2 hfits
      exact nomatch ha.symm.trans h
    · exact nomatch (herror (Nat.lt_of_not_le hfits)).symm.trans h
  · intro h
    exact ⟨_, _, perform_load_of_gt M h⟩

lemma toNat_wordAt (M : Memory) (address : Nat) :
    (M.wordAt address).toNat = 256 * (M.byte address).toNat + (M.byte (address + 1)).toNat := by
  have hhigh := (M.byte address).toNat_lt
  have hlow := (M.byte (address + 1)).toNat_lt
  rw [wordAt, UInt16.toNat_ofNat_of_lt' (by change _ < 2 ^ 16; omega), Nat.mul_comm]

lemma read_eq_recalled {ops before later : List Access} (h : SplitAtReset ops before later)
    {address : UInt16} {length : Nat} {data : List UInt8}
    (hread : (fresh.after ops).read address length = .ok data) :
    data = (List.range' address.toNat length).map (recalled before later) := by
  have hle : address.toNat + length ≤ 4096 := by
    rw [← (ranged_read _ address length).1]
    exact ⟨data, hread⟩
  rw [read_of_le _ hle, Except.ok.injEq] at hread
  rw [← hread]
  apply List.map_congr_left
  intro a ha
  rw [List.mem_range'_1] at ha
  exact byte_eq_recalled h (by omega)

lemma word_eq_recalled {ops before later : List Access} (h : SplitAtReset ops before later)
    {address w : UInt16} (hword : (fresh.after ops).word address = .ok w) :
    w.toNat = 256 * (recalled before later address.toNat).toNat +
      (recalled before later (address.toNat + 1)).toNat := by
  obtain ⟨hle, rfl⟩ := (word_eq_ok_iff _ _ _).1 hword
  rw [toNat_wordAt, byte_eq_recalled h (by omega), byte_eq_recalled h (by omega)]

/-- A memory keeps to its range and gives back what was put there last. -/
theorem recalls_last_writes (ops : List Access) (hops : fresh.AdmitsAll ops) :
    Faithful ops (fresh.after ops) where
  size := Vector.length_toList
  inPlace m := Stepwise.accesses_apply m hops
  next m _ hop := Stepwise.access_apply (m.withMemory (fresh.after ops)) hop
  refused _ _ h := perform_refused h
  write := ranged_answer_write _
  fill address length b := by
    have hfill := ranged_answer_write (fresh.after ops) address (List.replicate length b)
    rwa [← fill_eq_write, List.length_replicate] at hfill
  read := ranged_read _
  slice m address _ hl := Action.slice_apply (m.withMemory (fresh.after ops)) address hl
  word := ranged_word _
  tooLarge program := ⟨tooLarge_iff _ program, perform_load_of_gt _⟩
  load _ h := perform_load_of_le _ h
  split := exists_splitAtReset ops
  bytes _ _ h _ _ _ hread := read_eq_recalled h hread
  wordBytes _ _ h _ _ hword := word_eq_recalled h hword

/-- The font is moved and comes back with the reset. Of what follows the second write is refused, and the
others go over each other. -/
def overlapping : List Access :=
  [.write 0x100 [1, 2], .setFontBase 0x101, .reset] ++
    [.write 0x200 [1, 2, 3], .write 0xfff [5, 5], .setFontBase 0xfff, .setProgramBase 0x201,
      .load [9, 8], .fill 0x202 1 7, .write 0x1000 []]

theorem recalls_last_writes_overlapping :
    fresh.AdmitsAll overlapping ∧
      (fresh.after overlapping).read 0x200 4 = .ok [1, 9, 7, 0] ∧
      (fresh.after overlapping).read 0xfff 1 = .ok [0] ∧
      (fresh.after overlapping).word 0x101 = .ok 0xf090 ∧
      (fresh.after overlapping).word 0xfff = .error (.outOfBounds 4096) := by
  have hops : fresh.AdmitsAll overlapping := by decide +kernel
  have hsplit : SplitAtReset overlapping [.write 0x100 [1, 2], .setFontBase 0x101, .reset]
      [.write 0x200 [1, 2, 3], .write 0xfff [5, 5], .setFontBase 0xfff, .setProgramBase 0x201,
        .load [9, 8], .fill 0x202 1 7, .write 0x1000 []] :=
    ⟨rfl, .inr ⟨[.write 0x100 [1, 2], .setFontBase 0x101], rfl⟩, by simp⟩
  have hfaithful := recalls_last_writes overlapping hops
  refine ⟨hops, ?_, ?_, ?_, ?_⟩
  · obtain ⟨data, hread⟩ := (hfaithful.read 0x200 4).1.2 (by decide)
    rw [hread, hfaithful.bytes _ _ hsplit _ _ _ hread]
    decide +kernel
  · obtain ⟨data, hread⟩ := (hfaithful.read 0xfff 1).1.2 (by decide)
    rw [hread, hfaithful.bytes _ _ hsplit _ _ _ hread]
    decide +kernel
  · obtain ⟨w, hword⟩ := (hfaithful.word 0x101).1.2 (by decide)
    rw [hword, ← UInt16.ofNat_toNat (x := w), hfaithful.wordBytes _ _ hsplit _ _ hword]
    decide +kernel
  · exact (hfaithful.word 0xfff).2 (by decide)

end Memory

end ChipEight
