import ChipEight.ByteReader
import ChipEight.Pieces

/-! Files as a program meets them: places in a tree of directories, which a path leads to name by name.
A name is looked up in a directory only, so a path fails at its first name that is missing, too long or
below something else. -/
namespace ChipEight

abbrev Name := List Char

/-- The names from a place up to the root, which is the place without a name. -/
abbrev Place := List Name

inductive Entry
  | directory
  | file (data : List UInt8)
  deriving DecidableEq

/-- A directory can be opened like a file, but it cannot be read. -/
def Entry.chunks : Entry → List Chunk
  | directory => [.failure (.system .isADirectory)]
  | file data => [.bytes data]

/-- A path without a slash at its front leads on from `home`. -/
structure FileSystem where
  lookup : Place → Option Entry
  home : Place := []

namespace FileSystem

/-- The names between the slashes of a path, some of them empty. -/
def namesOf (path : List Char) : List Name := piecesBetween '/' path

/-- An empty name and a dot stay where they are, and two dots go up. -/
def enter (place : Place) (name : Name) : Place :=
  if name = [] ∨ name = ['.'] then place
  else if name = ['.', '.'] then place.tail
  else name :: place

def byteSize (cs : List Char) : Nat := cs.foldl (fun n c => n + c.utf8Size) 0

def follow (fs : FileSystem) (place : Place) : List Name → Except SystemError Place
  | [] => .ok place
  | name :: names =>
    match fs.lookup place with
    | none => .error .notFound
    | some (.file _) => .error .notADirectory
    | some .directory =>
      if 255 < byteSize name then .error .nameTooLong else fs.follow (enter place name) names

/-- Where some of the names of a path lead. The last of them need not be there yet. -/
def walk (fs : FileSystem) (path : List Char) (names : List Name) : Except SystemError Place :=
  if 4095 < byteSize path then .error .nameTooLong
  else fs.follow (if path.head? = some '/' then [] else fs.home) names

def locate (fs : FileSystem) (path : List Char) : Except SystemError Place := fs.walk path (namesOf path)

def openFile (fs : FileSystem) (path : String) : Except SystemError Entry := do
  let place ← fs.locate path.toList
  match fs.lookup place with
  | some entry => .ok entry
  | none => .error .notFound

def put (fs : FileSystem) (place : Place) (entry : Entry) : FileSystem :=
  { fs with lookup := fun p => if p = place then some entry else fs.lookup p }

/-- All names but the last, and an empty one that asks for the directory they lead to. -/
def parentNames (path : List Char) : List Name :=
  ((namesOf path).filter fun name => !name.isEmpty).dropLast ++ [[]]

/-- Makes an empty file or empties the one that is there. A path with a slash at its end can only be a
directory, so its last name is not looked up. -/
def create (fs : FileSystem) (path : String) : Except SystemError FileSystem := do
  if path.toList.getLast? = some '/' then
    let _ ← fs.walk path.toList (parentNames path.toList)
    .error .isADirectory
  else
    let place ← fs.locate path.toList
    match fs.lookup place with
    | some .directory => .error .isADirectory
    | _ => .ok (fs.put place (.file []))

theorem lookup_put (fs : FileSystem) (place p : Place) (entry : Entry) :
    (fs.put place entry).lookup p = if p = place then some entry else fs.lookup p := rfl

/-- Every name but the last was looked up in a directory that is there. -/
theorem follow_append (fs : FileSystem) (place : Place) (a b : List Name) :
    fs.follow place (a ++ b) = (fs.follow place a).bind fun p => fs.follow p b := by
  induction a generalizing place with
  | nil => rfl
  | cons name a ih =>
    simp only [List.cons_append, follow]
    split
    · rfl
    · rfl
    · split
      · rfl
      · exact ih _

/-- A path does not lead through a place that is no directory, whatever is put there. -/
theorem follow_put {fs : FileSystem} {place p q : Place} {names : List Name} (entry : Entry)
    (hp : fs.lookup place ≠ some .directory) (h : fs.follow p names = .ok q) :
    (fs.put place entry).follow p names = .ok q := by
  induction names generalizing p with
  | nil => exact h
  | cons name names ih =>
    simp only [follow] at h ⊢
    split at h
    · cases h
    · cases h
    · next hd =>
      have : p ≠ place := fun he => hp (he ▸ hd)
      simp only [lookup_put, this, if_false, hd]
      split at h
      · cases h
      · next hn => rw [if_neg hn]; exact ih h

theorem create_eq_ok {fs made : FileSystem} {path : String} (h : fs.create path = .ok made) :
    ∃ place, fs.locate path.toList = .ok place ∧ fs.lookup place ≠ some .directory ∧
      made = fs.put place (.file []) := by
  unfold create at h
  split at h
  · cases hl : fs.walk path.toList (parentNames path.toList) <;> rw [hl] at h <;> cases h
  · cases hl : fs.locate path.toList with
    | error e => rw [hl] at h; cases h
    | ok place =>
      rw [hl] at h
      simp only [bind, Except.bind] at h
      split at h
      · cases h
      · next hd => cases h; exact ⟨place, rfl, hd, rfl⟩

/-- A file that has just been created is there and empty. -/
theorem openFile_of_create {fs made : FileSystem} {path : String} (h : fs.create path = .ok made) :
    made.openFile path = .ok (.file []) := by
  obtain ⟨place, hl, hd, rfl⟩ := create_eq_ok h
  have hl' : (fs.put place (.file [])).locate path.toList = .ok place := by
    unfold locate walk at hl ⊢
    split at hl
    · cases hl
    · next hs => rw [if_neg hs]; exact follow_put _ hd hl
  simp [openFile, hl', lookup_put, bind, Except.bind]

end FileSystem

end ChipEight
