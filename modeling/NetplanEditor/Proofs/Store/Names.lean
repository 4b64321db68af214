import NetplanEditor.Proofs.FileSystem.Calls
import NetplanEditor.Store.File

/-!
# The three names of a document

Everything that is kept for an interface stands under names that begin alike: the document itself,
its backup, and the temporary file. The common beginning of their paths is the `front`. The three
names are in one directory, and two names are the same only if they have the same front and are the
same part of it.
-/

namespace NetplanEditor

namespace FileStore

/-- What a file is for that is kept for an interface. -/
inductive Part
  | document
  | temporary
  | backup
  deriving DecidableEq

namespace Part

/-- What comes behind the front. -/
def suffix : Part → String
  | document => ".yaml"
  | temporary => ".yaml.tmp"
  | backup => ".yaml.bkp"

/-- The path of a part. -/
def path (part : Part) (front : String) : String := front ++ part.suffix

/-- The name of a part in its directory. -/
def name (part : Part) (front : String) : String := Path.lastOf front ++ part.suffix

theorem suffix_no_slash (part : Part) : '/' ∉ part.suffix.toList := by
  cases part <;> decide

theorem suffix_no_nul (part : Part) : '\x00' ∉ part.suffix.toList := by
  cases part <;> decide

/-- Each part names something in the directory of the front. -/
theorem names (part : Part) (front : String) :
    Path.Names (part.path front) (Path.isAbsolute front) (Path.folderOf front)
      (part.name front) := by
  have long : 2 < part.suffix.length := by cases part <;> decide
  exact Path.names_append front part.suffix_no_slash long

/-- The end of a name tells which part it is, and the rest is what the front ends in. -/
theorem name_inj {part other : Part} {front front' : String}
    (same : part.name front = other.name front') :
    part = other ∧ Path.lastOf front = Path.lastOf front' := by
  have reversed : part.suffix.toList.reverse ++ (Path.lastOf front).toList.reverse =
      other.suffix.toList.reverse ++ (Path.lastOf front').toList.reverse := by
    rw [← List.reverse_append, ← List.reverse_append, ← String.toList_append,
      ← String.toList_append]
    exact congrArg (fun name : String => name.toList.reverse) same
  have parts : part = other := by
    cases part <;> cases other <;> first | rfl | simp [suffix] at reversed
  subst parts
  have fronts := List.reverse_inj.mp (List.append_cancel_left reversed)
  exact ⟨rfl, String.toList_inj.mp fronts⟩

theorem document_temporary (front : String) :
    document.path front ++ temporarySuffix = temporary.path front := by
  rw [path, String.append_assoc]
  rfl

theorem document_backup (front : String) :
    document.path front ++ backupSuffix = backup.path front := by
  rw [path, String.append_assoc]
  rfl

theorem name_ne {part other : Part} (differ : part ≠ other) (front : String) :
    part.name front ≠ other.name front :=
  fun same => differ (name_inj same).1

end Part

/-! ## The paths of a store -/

/-- What the paths begin with that are used for an interface. -/
def front (store : FileStore) (interface : String) : String :=
  Path.join store.dir (store.start ++ interface)

theorem pathFor_eq (store : FileStore) (interface : String) :
    store.pathFor interface = Part.document.path (store.front interface) := by
  have relative : Path.isAbsolute (store.start ++ interface ++ ".yaml") =
      Path.isAbsolute (store.start ++ interface) :=
    Path.isAbsolute_append (by decide)
  unfold pathFor Part.path front Path.join
  rw [relative]
  split
  · rfl
  · split
    · exact String.append_assoc.symm
    · exact String.append_assoc.symm

theorem backupFor_eq (store : FileStore) (interface : String) :
    store.backupFor interface = Part.backup.path (store.front interface) := by
  rw [backupFor, pathFor_eq, Part.document_backup]

end FileStore

namespace FileSystem

open FileStore (Part)

variable {fs after : FileSystem} {front : String} {folder : Folder}

/-! ## The directory of a front -/

/-- The directory that the names of a front are in. -/
def homeOf (fs : FileSystem) (front : String) : Except ErrorNumber Folder :=
  fs.home (Path.isAbsolute front) (Path.folderOf front)

/-- The names that are looked at on the way to it. -/
def wayTo (fs : FileSystem) (front : String) : List Spot :=
  fs.way (fs.start (Path.isAbsolute front)) (Path.folderOf front)

/-- Walks come to the directory of the front, and each of the three names can be looked at there. -/
structure Opens (fs : FileSystem) (front : String) (folder : Folder) : Prop where
  home : fs.homeOf front = .ok folder
  isDir : fs.isDirectoryId folder.dir = true
  within : fs.Within folder.dir folder.above
  plain : ∀ part : Part, Plain (part.name front)
  accepted : ∀ part : Part, Path.refusal? (part.path front) = none

theorem Opens.reaches (opens : fs.Opens front folder) (part : Part) :
    fs.Reaches (part.path front) (Path.isAbsolute front) (Path.folderOf front) (part.name front)
      folder :=
  ⟨opens.home, opens.isDir, opens.within, opens.plain part, opens.accepted part⟩

/-- No part has a longer name than the temporary file. -/
theorem Reaches.opens
    (reaches : fs.Reaches (Part.temporary.path front) (Path.isAbsolute front)
      (Path.folderOf front) (Part.temporary.name front) folder) :
    fs.Opens front folder := by
  have suffixes (part : Part) : part.suffix.utf8ByteSize ≤ Part.temporary.suffix.utf8ByteSize := by
    cases part <;> decide
  refine ⟨reaches.home, reaches.isDir, reaches.within, fun part => ?_, fun part => ?_⟩
  · have names := part.names front
    have short := reaches.plain.short
    refine ⟨names.dot, names.dots, ?_⟩
    have size := suffixes part
    simp only [Part.name, String.utf8ByteSize_append] at short ⊢
    omega
  · have accepted := reaches.accepted
    unfold Path.refusal? at accepted ⊢
    split at accepted
    · cases accepted
    next noNul =>
      split at accepted
      · cases accepted
      · split at accepted
        · cases accepted
        next short =>
          have noNul' : (part.path front).toList.contains '\x00' = false := by
            have free := part.suffix_no_nul
            simp only [Part.path, String.toList_append, List.contains_eq_mem, List.mem_append,
              decide_eq_true_eq, not_or] at noNul
            simp [Part.path, String.toList_append, noNul.1, free]
          have nonempty : (part.path front).isEmpty = false := by
            cases part <;> simp [Part.path, Part.suffix]
          have size := suffixes part
          have short' : ¬ (part.path front).utf8ByteSize > maxPath := by
            simp only [Part.path, String.utf8ByteSize_append] at short ⊢
            omega
          rw [noNul', nonempty, if_neg (by decide), if_neg (by decide), if_neg short']

end FileSystem

end NetplanEditor
