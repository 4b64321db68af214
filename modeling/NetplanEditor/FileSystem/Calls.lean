import NetplanEditor.FileSystem.Basic

/-!
The calls that read and change a file system.

Each call either fails with its cause and changes nothing, or gives the file system as it is
afterwards. A file written to through one of its names is the same file under all of them, removing
a name leaves the file to its other names, and renaming puts the file in place of whatever had the
new name in one step.
-/

namespace NetplanEditor.FileSystem

/-- A kernel refusal as the result of a call. -/
def refuse {α : Type} (number : ErrorNumber) : Except SystemError α := .error (.numbered number)

/-! ## Looking -/

/-- Something stands at the path, after following links. -/
def isPresent (fs : FileSystem) (path : String) : Bool := (fs.resolve true path).isOk

/-- A directory stands at the path, after following links. -/
def isDirectory (fs : FileSystem) (path : String) : Bool :=
  match fs.resolve true path with
  | .ok id => fs.isDirectoryId id
  | .error _ => false

/-- The content of the file at the path. -/
def read (fs : FileSystem) (path : String) : Except SystemError ByteArray := do
  match fs.object? (← fs.resolve true path) with
  | some (.file content _) => .ok content
  | _ => refuse .isADirectory

/-- The file at the path can be started as a program. -/
def checkExecutable (fs : FileSystem) (path : String) : Except SystemError Unit := do
  match fs.object? (← fs.resolve true path) with
  | some (.file _ true) => .ok ()
  | _ => refuse .accessDenied

/-! ## Making and removing -/

/-- Makes a directory; its parent has to exist and its name has to be free. -/
def makeDirectory (fs : FileSystem) (path : String) : Except SystemError FileSystem := do
  match ← fs.locateName false path with
  | .entry dir _ name none => .ok (fs.addObject dir name (.directory []))
  | _ => refuse .entryExists

/-- Makes the file at the path hold `content`; a file that is not there is made, and one that is
there keeps its names. A path that ends in a slash can only be a directory. -/
def write (fs : FileSystem) (path : String) (content : ByteArray) :
    Except SystemError FileSystem := do
  let slash := Path.endsInSlash path
  match ← fs.locateName (!slash) path with
  | .directory _ _ => refuse .isADirectory
  | .entry dir _ name none =>
    if slash then refuse .isADirectory else .ok (fs.addObject dir name (.file content false))
  | .entry _ _ _ (some id) =>
    if slash then refuse .isADirectory else
    match fs.object? id with
    | some (.file _ executable) => .ok (fs.setObject id (.file content executable))
    | _ => refuse .isADirectory

/-- Removes a name that does not stand for a directory. -/
def remove (fs : FileSystem) (path : String) : Except SystemError FileSystem := do
  match ← fs.locate false path with
  | .directory _ _ => refuse .isADirectory
  | .entry _ _ _ none => refuse .noEntry
  | .entry dir _ name (some id) =>
    if fs.isDirectoryId id then refuse .isADirectory else .ok (fs.dropEntry dir name)

/-- Gives what stands at `old` the second name `new`. A symbolic link at `old` is not followed, and
directories have one name only. -/
def link (fs : FileSystem) (old new : String) : Except SystemError FileSystem := do
  let id ← fs.resolve false old
  match ← fs.locate false new with
  | .entry dir _ name none =>
    if fs.isDirectoryId id then refuse .notPermitted else .ok (fs.setEntry dir name id)
  | _ => refuse .entryExists

/-- Copies the content of the file at `old` into the file at `new`. -/
def copy (fs : FileSystem) (old new : String) : Except SystemError FileSystem := do
  match fs.object? (← fs.resolve true old) with
  | some (.file content _) => fs.write new content
  | _ => .error .notAFile

/-- Moves what stands at `old` to `new`, in place of a file or link already there. Where both names
stand for the same file nothing happens. -/
def rename (fs : FileSystem) (old new : String) : Except SystemError FileSystem := do
  match ← fs.locate false old, ← fs.locate false new with
  | .entry _ _ _ none, _ => refuse .noEntry
  | .entry dir _ name (some id), .entry newDir _ newName taken =>
    if taken == some id then .ok fs
    else if taken.any fs.isDirectoryId && !fs.isDirectoryId id then refuse .isADirectory
    else .ok ((fs.setEntry newDir newName id).dropEntry dir name)
  | _, _ => refuse .isADirectory

def makeLink (fs : FileSystem) (target path : String) : Except SystemError FileSystem := do
  match ← fs.locate false path with
  | .entry dir _ name none => .ok (fs.addObject dir name (.symlink target))
  | _ => refuse .entryExists

/-! ## Trees -/

/-- Makes the directories of the list that are missing, which names them nearest first. -/
def makeDirectories (fs : FileSystem) : List String → FileSystem
  | [] => fs
  | path :: above =>
    if path.isEmpty || fs.isDirectory path then fs
    else
      let fs := fs.makeDirectories above
      (fs.makeDirectory path).toOption.getD fs

/-- Every name below a directory with the object it stands for, as paths relative to that
directory. Links are not followed; `depth` bounds how deep directories nest. -/
def listBelow (fs : FileSystem) : (depth : Nat) → ObjectId → List (String × FileObject)
  | 0, _ => []
  | depth + 1, dir =>
    (fs.entriesOf dir).flatMap fun (name, id) =>
      match fs.object? id with
      | none => []
      | some object =>
        (name, object) ::
          (fs.listBelow depth id).map fun (below, inner) => (name ++ "/" ++ below, inner)

/-- Every path below the working directory. Directories cannot nest deeper than there are
objects. -/
def list (fs : FileSystem) : List (String × FileObject) :=
  match fs.working with
  | dir :: _ => fs.listBelow (fs.objects.length + 1) dir
  | [] => []

end NetplanEditor.FileSystem
