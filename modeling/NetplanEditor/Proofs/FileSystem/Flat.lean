import NetplanEditor.Proofs.FileSystem.Calls

/-!
# File systems without symbolic links

Where there are no symbolic links, nothing stands behind a name but the object it stands for, so a
walk along a name ends there.
-/

namespace NetplanEditor

namespace FileSystem

variable {fs : FileSystem} {name : String} {folder : Folder}

/-- No object is a symbolic link. -/
def Flat (fs : FileSystem) : Prop := ∀ id target, fs.shape? id ≠ some (.symlink target)

namespace Flat

/-- That there are no symbolic links can be read off the objects. -/
theorem of_objects (none : ∀ pair ∈ fs.objects, pair.2.isLink = false) : fs.Flat := by
  intro id target isLink
  unfold shape? at isLink
  cases found : fs.object? id with
  | none => simp [found] at isLink
  | some object =>
      have noLink : object.isLink = false := none _ (mem_of_lookup found)
      rw [found] at isLink
      cases object with
      | file => cases isLink
      | directory => cases isLink
      | symlink => cases noLink

theorem linked (flat : fs.Flat) : fs.linked folder name = [] := by
  unfold FileSystem.linked
  cases fs.child? folder.dir name with
  | none => rfl
  | some id =>
      dsimp only
      rw [beyond_of_not_link (flat id)]
      rfl

/-- A walk ends at the name itself. -/
theorem walkOn (flat : fs.Flat) (isDir : fs.isDirectoryId folder.dir = true) (plain : Plain name) :
    fs.walkOn true folder [name] =
      .ok (.entry folder.dir folder.above name (fs.child? folder.dir name)) := by
  rw [walkOn_plain isDir plain]
  cases fs.child? folder.dir name with
  | none => rfl
  | some id =>
      dsimp only
      rw [beyond_of_not_link (flat id)]
      rfl

theorem walkOn_ok (flat : fs.Flat) (isDir : fs.isDirectoryId folder.dir = true) (dot : name ≠ ".")
    (dots : name ≠ "..") {place : Place} (ends : fs.walkOn true folder [name] = .ok place) :
    place = .entry folder.dir folder.above name (fs.child? folder.dir name) := by
  rw [flat.walkOn isDir (plain_of_walkOn isDir dot dots ends)] at ends
  exact (Except.ok.inj ends).symm

end Flat

end FileSystem

end NetplanEditor
