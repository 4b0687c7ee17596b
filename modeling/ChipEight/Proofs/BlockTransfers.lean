import ChipEight.Proofs.WriteSets

/-! Saving registers and getting them back. A block of registers that has been stored is loaded again as it
was, and so is a list of blocks one behind the other: where a transfer leaves the index past the block, the
next one begins where it ended, neither over it nor with a gap between. -/
namespace ChipEight

/-- A block of the registers `0` to `last`, with what the registers hold when it is stored and what they
hold when it is loaded again. -/
structure Transfer where
  last : Register
  stored : Vector UInt8 16
  others : Vector UInt8 16

namespace Transfer

def size (t : Transfer) : Nat := t.last.val + 1

def bytes (t : Transfer) : List UInt8 := t.stored.toList.take t.size

def restored (t : Transfer) : Vector UInt8 16 :=
  Vector.ofFn fun k : Register => if k ≤ t.last then t.stored.get k else t.others.get k

def totalSize (ts : List Transfer) : Nat := (ts.map size).sum

lemma length_bytes (t : Transfer) : t.bytes.length = t.size :=
  Action.length_take_registers t.stored t.last

lemma length_flatMap_bytes (ts : List Transfer) : (ts.flatMap bytes).length = totalSize ts := by
  rw [List.length_flatMap, totalSize]
  simp only [length_bytes]

lemma totalSize_cons (t : Transfer) (ts : List Transfer) :
    totalSize (t :: ts) = t.size + totalSize ts := by
  rw [totalSize, List.map_cons, List.sum_cons, totalSize]

lemma ofFn_bytes (t : Transfer) :
    (Vector.ofFn fun k : Register => t.bytes[k.val]?.getD (t.others.get k)) = t.restored := by
  unfold restored
  congr 1
  funext k
  by_cases hk : k ≤ t.last
  · have hlt : k.val < t.size := Nat.lt_succ_of_le hk
    have hk16 : k.val < 16 := k.isLt
    rw [if_pos hk, bytes, List.getElem?_take_of_lt hlt, Vector.getElem?_toList,
      Vector.getElem?_eq_getElem hk16, Option.getD_some]
    rfl
  · have hnone : t.bytes[k.val]? = none := by
      rw [List.getElem?_eq_none_iff, length_bytes]
      exact Nat.lt_of_not_le hk
    rw [if_neg hk, hnone, Option.getD_none]

end Transfer

namespace Memory

lemma put_put (bytes : Vector UInt8 4096) (start : Nat) (a b : List UInt8) :
    put (put bytes start a) (start + a.length) b = put bytes start (a ++ b) := by
  induction a generalizing bytes start with
  | nil => rfl
  | cons x a ih =>
    rw [List.length_cons, Nat.add_comm a.length 1, ← Nat.add_assoc]
    exact ih _ _

lemma overlaid_overlaid (M : Memory) (start : Nat) (a b : List UInt8) :
    (M.overlaid start a).overlaid (start + a.length) b = M.overlaid start (a ++ b) := by
  simp only [overlaid, put_put]

lemma bytes_overlaid (M : Memory) {start : Nat} {data : List UInt8}
    (h : start + data.length ≤ 4096) :
    (List.range' start data.length).map (M.overlaid start data).byte = data := by
  apply List.ext_getElem
  · rw [List.length_map, List.length_range']
  · intro k _ hk
    rw [List.getElem_map, List.getElem_range', Nat.one_mul, byte_overlaid M hk h]

end Memory

namespace Machine

open Transfer

/-- Stores the blocks one after the other, with their registers put in place before each. -/
def storeAll (m : Machine) : List Transfer → Except Failure Machine
  | [] => .ok m
  | t :: rest => do
    let m ← execute m.pc (.storeBlock t.last) { m with v := t.stored }
    m.storeAll rest

/-- Loads the blocks one after the other, each over other registers, and gives the registers after each
load as well. -/
def loadAll (m : Machine) : List Transfer → Except Failure (List (Vector UInt8 16) × Machine)
  | [] => .ok ([], m)
  | t :: rest => do
    let m ← execute m.pc (.loadBlock t.last) { m with v := t.others }
    let (later, done) ← m.loadAll rest
    return (m.v :: later, done)

variable {m : Machine}

lemma stores_block (t : Transfer) (h : m.index.toNat + t.size ≤ 4096) :
    ∃ mid, execute m.pc (.storeBlock t.last) { m with v := t.stored } = .ok mid ∧
      mid.dialect = m.dialect ∧ mid.memory = m.memory.overlaid m.index.toNat t.bytes ∧
      mid.index = m.indexAfter t.last := by
  rw [← t.length_bytes] at h
  have hwrite : m.memory.write m.index (t.stored.toList.take (t.last.val + 1)) =
      .ok (m.memory.overlaid m.index.toNat t.bytes) := Memory.write_of_le m.memory h
  simp only [execute, hwrite]
  exact ⟨_, rfl, rfl, rfl, rfl⟩

lemma loads_block (t : Transfer) (h : m.index.toNat + t.size ≤ 4096)
    (hbytes : (List.range' m.index.toNat t.size).map m.memory.byte = t.bytes) :
    ∃ mid, execute m.pc (.loadBlock t.last) { m with v := t.others } = .ok mid ∧
      mid.dialect = m.dialect ∧ mid.memory = m.memory ∧ mid.index = m.indexAfter t.last ∧
      mid.v = t.restored := by
  have hread : m.memory.read m.index (t.last.val + 1) = .ok t.bytes := by
    rw [← hbytes]
    exact Memory.read_of_le m.memory h
  simp only [execute, hread]
  exact ⟨_, rfl, rfl, rfl, rfl, t.ofFn_bytes⟩

lemma toNat_indexAfter {last : Register} (h : m.index.toNat + (last.val + 1) ≤ 4096)
    (hd : m.dialect.transferAdvances = true) :
    (m.indexAfter last).toNat = m.index.toNat + (last.val + 1) := by
  have hl := last.isLt
  rw [indexAfter, if_pos hd, UInt16.toNat_add, UInt16.toNat_ofNat']
  omega

theorem storeAll_of_le (hd : m.dialect.transferAdvances = true) {ts : List Transfer}
    (h : m.index.toNat + totalSize ts ≤ 4096) :
    ∃ done, m.storeAll ts = .ok done ∧ done.dialect = m.dialect ∧
      done.memory = m.memory.overlaid m.index.toNat (ts.flatMap bytes) ∧
      done.index.toNat = m.index.toNat + totalSize ts := by
  induction ts generalizing m with
  | nil => exact ⟨m, rfl, rfl, rfl, rfl⟩
  | cons t ts ih =>
    rw [totalSize_cons] at h
    have hfirst : m.index.toNat + t.size ≤ 4096 := by omega
    obtain ⟨mid, hstore, hdialect, hmemory, hindex⟩ := stores_block t hfirst
    have hmid : mid.index.toNat = m.index.toNat + t.size := by
      rw [hindex]
      exact toNat_indexAfter hfirst hd
    obtain ⟨done, hdone, hdialect', hmemory', hindex'⟩ :=
      ih (m := mid) (hdialect ▸ hd) (by omega)
    refine ⟨done, ?_, hdialect'.trans hdialect, ?_, ?_⟩
    · rw [storeAll, hstore]
      exact hdone
    · rw [hmemory', hmemory, hmid, ← t.length_bytes, Memory.overlaid_overlaid, List.flatMap_cons]
    · rw [hindex', hmid, totalSize_cons, Nat.add_assoc]

theorem loadAll_of_bytes (hd : m.dialect.transferAdvances = true) {ts : List Transfer}
    (h : m.index.toNat + totalSize ts ≤ 4096)
    (hbytes : (List.range' m.index.toNat (totalSize ts)).map m.memory.byte = ts.flatMap bytes) :
    ∃ done, m.loadAll ts = .ok (ts.map restored, done) ∧ done.memory = m.memory ∧
      done.index.toNat = m.index.toNat + totalSize ts := by
  induction ts generalizing m with
  | nil => exact ⟨m, rfl, rfl, rfl⟩
  | cons t ts ih =>
    rw [totalSize_cons] at h
    have hfirst : m.index.toNat + t.size ≤ 4096 := by omega
    rw [totalSize_cons, ← List.range'_append_1, List.map_append, List.flatMap_cons] at hbytes
    obtain ⟨hbytes, hrest⟩ := List.append_inj hbytes (by
      rw [List.length_map, List.length_range', length_bytes])
    obtain ⟨mid, hload, hdialect, hmemory, hindex, hv⟩ := loads_block t hfirst hbytes
    have hmid : mid.index.toNat = m.index.toNat + t.size := by
      rw [hindex]
      exact toNat_indexAfter hfirst hd
    rw [← hmid, ← hmemory] at hrest
    obtain ⟨done, hdone, hmemory', hindex'⟩ := ih (m := mid) (hdialect ▸ hd) (by omega) hrest
    refine ⟨done, ?_, hmemory'.trans hmemory, ?_⟩
    · rw [loadAll, hload]
      simp only [Bind.bind, Except.bind, hdone, hv, List.map_cons]
      rfl
    · rw [hindex', hmid, totalSize_cons, Nat.add_assoc]

/-- No byte is different outside the range from `start` on. -/
def SameOutside (start length : Nat) (M N : Memory) : Prop :=
  ∀ a, a < start ∨ start + length ≤ a → N.byte a = M.byte a

lemma sameOutside_overlaid (M : Memory) (start : Nat) (data : List UInt8) :
    SameOutside start data.length M (M.overlaid start data) := by
  intro a ha
  apply Memory.byte_overlaid_of_not_mem
  rw [List.mem_range'_1]
  omega

/-- Where a transfer advances the index, blocks that are stored one behind the other come back one behind
the other once the index is back at the first of them, over whatever the registers hold by then. Where it
does not, a block comes back as it is. -/
theorem stored_blocks_come_back (m : Machine) :
    (m.dialect.transferAdvances = true →
      ∀ ts : List Transfer, m.index.toNat + totalSize ts ≤ 4096 →
        ∃ stored loaded, m.storeAll ts = .ok stored ∧
          { stored with index := m.index }.loadAll ts = .ok (ts.map restored, loaded) ∧
          stored.index.toNat = (m.index.toNat + totalSize ts) % 65536 ∧
          loaded.index.toNat = (m.index.toNat + totalSize ts) % 65536 ∧
          SameOutside m.index.toNat (totalSize ts) m.memory stored.memory ∧
          loaded.memory = stored.memory) ∧
    (m.dialect.transferAdvances = false →
      ∀ t : Transfer, m.index.toNat + t.size ≤ 4096 →
        ∃ stored loaded, m.storeAll [t] = .ok stored ∧
          stored.loadAll [t] = .ok ([t.restored], loaded) ∧
          stored.index = m.index ∧ loaded.index = m.index ∧
          SameOutside m.index.toNat t.size m.memory stored.memory ∧
          loaded.memory = stored.memory) := by
  constructor
  · intro hd ts h
    obtain ⟨stored, hstore, hdialect, hmemory, hindex⟩ := storeAll_of_le hd h
    have hfit : m.index.toNat + (ts.flatMap bytes).length ≤ 4096 := by
      rwa [length_flatMap_bytes]
    have hbytes : (List.range' m.index.toNat (totalSize ts)).map stored.memory.byte =
        ts.flatMap bytes := by
      rw [hmemory, ← length_flatMap_bytes]
      exact m.memory.bytes_overlaid hfit
    obtain ⟨loaded, hload, hmemory', hindex'⟩ := loadAll_of_bytes
      (m := { stored with index := m.index }) (hdialect.symm ▸ hd) h hbytes
    have hmod : (m.index.toNat + totalSize ts) % 65536 = m.index.toNat + totalSize ts :=
      Nat.mod_eq_of_lt (by omega)
    refine ⟨stored, loaded, hstore, hload, hindex.trans hmod.symm, hindex'.trans hmod.symm, ?_,
      hmemory'⟩
    rw [hmemory, ← length_flatMap_bytes]
    exact sameOutside_overlaid _ _ _
  · intro hd t h
    have hstay (m' : Machine) (hd' : m'.dialect = m.dialect) : m'.indexAfter t.last = m'.index := by
      rw [indexAfter, hd', hd]
      rfl
    obtain ⟨stored, hstore, hdialect, hmemory, hindex⟩ := stores_block t h
    rw [hstay m rfl] at hindex
    have hfit : m.index.toNat + t.bytes.length ≤ 4096 := by rwa [length_bytes]
    have hbytes : (List.range' stored.index.toNat t.size).map stored.memory.byte = t.bytes := by
      rw [hindex, hmemory, ← length_bytes]
      exact m.memory.bytes_overlaid hfit
    obtain ⟨loaded, hload, -, hmemory', hindex', hv⟩ :=
      loads_block (m := stored) t (hindex.symm ▸ h) hbytes
    rw [hstay stored hdialect] at hindex'
    refine ⟨stored, loaded, ?_, ?_, hindex, hindex'.trans hindex, ?_, hmemory'⟩
    · rw [storeAll, hstore]
      rfl
    · rw [loadAll, hload, ← hv]
      rfl
    · rw [hmemory, ← length_bytes]
      exact sameOutside_overlaid _ _ _

/-- Two registers and then four, loaded back over zeroes and over the first block. -/
def twoBlocks : List Transfer :=
  [⟨1, Vector.replicate 16 7, Vector.replicate 16 0⟩,
    ⟨3, Vector.ofFn fun k => UInt8.ofNat k.val, Vector.replicate 16 7⟩]

/-- Right before the end of memory. -/
def nearEnd (dialect : Dialect) (index : UInt16) : Machine :=
  { start ⟨fun _ => 0, 0⟩ dialect with index := index }

theorem stored_blocks_come_back_at_end :
    (∃ stored loaded, (nearEnd ⟨false, true⟩ 0xffa).storeAll twoBlocks = .ok stored ∧
      { stored with index := 0xffa }.loadAll twoBlocks =
        .ok ([Vector.ofFn fun k => if k ≤ 1 then 7 else 0,
          Vector.ofFn fun k => if k ≤ 3 then UInt8.ofNat k.val else 7], loaded) ∧
      stored.index.toNat = 4096 ∧ loaded.index.toNat = 4096) ∧
    ∃ stored loaded, (nearEnd {} 0xff0).storeAll [⟨15, Vector.replicate 16 9, Vector.replicate 16 0⟩] =
        .ok stored ∧
      stored.loadAll [⟨15, Vector.replicate 16 9, Vector.replicate 16 0⟩] =
        .ok ([Vector.replicate 16 9], loaded) ∧
      stored.index = 0xff0 ∧ loaded.index = 0xff0 := by
  obtain ⟨hadvancing, -⟩ := stored_blocks_come_back (nearEnd ⟨false, true⟩ 0xffa)
  obtain ⟨-, hstaying⟩ := stored_blocks_come_back (nearEnd {} 0xff0)
  obtain ⟨stored, loaded, hstore, hload, hindex, hindex', -⟩ := hadvancing rfl twoBlocks (by decide)
  obtain ⟨stored', loaded', hstore', hload', hstay, hstay', -⟩ :=
    hstaying rfl ⟨15, Vector.replicate 16 9, Vector.replicate 16 0⟩ (by decide)
  have hrestored : twoBlocks.map restored = [Vector.ofFn fun k => if k ≤ 1 then 7 else 0,
      Vector.ofFn fun k => if k ≤ 3 then UInt8.ofNat k.val else 7] := by decide +kernel
  have hrestored' : restored ⟨15, Vector.replicate 16 9, Vector.replicate 16 0⟩ =
      Vector.replicate 16 9 := by decide +kernel
  rw [hrestored] at hload
  rw [hrestored'] at hload'
  exact ⟨⟨stored, loaded, hstore, hload, hindex.trans (by decide), hindex'.trans (by decide)⟩,
    stored', loaded', hstore', hload', hstay, hstay'⟩

end Machine

end ChipEight
