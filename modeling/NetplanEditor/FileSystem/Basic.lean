import NetplanEditor.FileSystem.Error
import NetplanEditor.FileSystem.Path

/-!
A file system as a value: numbered objects, directories that name them, and the walk along a path.

Names and objects are kept apart, so one file can have several names. A directory lists names with
the numbers of what they name; a symbolic link holds the text of the path it stands for. Walking a
path goes from directory to directory, follows the links it meets on the way, and ends at a
`Place`: a directory it came to through `.`, `..` or the root, or a name in a directory, taken or
not.
-/

namespace NetplanEditor

abbrev ObjectId := Nat

/-- Something that a name in a directory can stand for. -/
inductive FileObject
  | file (content : ByteArray) (executable : Bool)
  | directory (entries : List (String × ObjectId))
  | symlink (target : String)

/-- The objects of a file system by number, with the directory that relative paths start in. -/
structure FileSystem where
  /-- The objects; where a number occurs twice, the first occurrence counts. -/
  objects : List (ObjectId × FileObject)
  root : ObjectId
  /-- The directories from the working directory up to the root. -/
  working : List ObjectId
  next : ObjectId

/-- Where the walk along a path ends. -/
inductive Place
  | directory (id : ObjectId) (above : List ObjectId)
  /-- A name in a directory, with the object it stands for if it is taken. -/
  | entry (dir : ObjectId) (above : List ObjectId) (name : String) (target : Option ObjectId)
  deriving DecidableEq

namespace FileSystem

def object? (fs : FileSystem) (id : ObjectId) : Option FileObject := fs.objects.lookup id

/-- The names in a directory; other objects hold none. -/
def entriesOf (fs : FileSystem) (id : ObjectId) : List (String × ObjectId) :=
  match fs.object? id with
  | some (.directory entries) => entries
  | _ => []

/-- What a name in a directory stands for. -/
def child? (fs : FileSystem) (dir : ObjectId) (name : String) : Option ObjectId :=
  (fs.entriesOf dir).lookup name

/-- The number is that of a directory. -/
def isDirectoryId (fs : FileSystem) (id : ObjectId) : Bool :=
  match fs.object? id with
  | some (.directory _) => true
  | _ => false

/-- The longest name a directory takes, in bytes. -/
def maxName : Nat := 255

/-- The longest path a call takes, in bytes. -/
def maxPath : Nat := 4095

/-- The number of symbolic links that one walk follows at most. -/
def maxLinks : Nat := 40

/-! ## Walking a path -/

/-- Walks the components from the directory `dir`. A symbolic link on the way, and one at the end
if `follow` asks for it, is replaced by its target: `jump` walks on from the directory that the
target starts in. -/
def walkWith (fs : FileSystem) (follow : Bool)
    (jump : ObjectId → List ObjectId → List String → Except ErrorNumber Place) :
    (dir : ObjectId) → (above : List ObjectId) → List String → Except ErrorNumber Place
  | dir, above, [] => .ok (.directory dir above)
  | dir, above, name :: rest =>
    if !fs.isDirectoryId dir then .error .notADirectory
    else if name == "." then walkWith fs follow jump dir above rest
    else if name == ".." then
      match above with
      | [] => walkWith fs follow jump dir [] rest
      | up :: higher => walkWith fs follow jump up higher rest
    else if name.utf8ByteSize > maxName then .error .nameTooLong
    else
      match fs.child? dir name with
      | none =>
        if rest.isEmpty then .ok (.entry dir above name none) else .error .noEntry
      | some id =>
        match fs.object? id with
        | some (.symlink target) =>
          if rest.isEmpty && !follow then .ok (.entry dir above name (some id))
          else if Path.isAbsolute target then jump fs.root [] (Path.components target ++ rest)
          else jump dir above (Path.components target ++ rest)
        | _ =>
          if rest.isEmpty then .ok (.entry dir above name (some id))
          else walkWith fs follow jump id (dir :: above) rest

/-- Walks the components from a directory, following at most `links` symbolic links. -/
def walk (fs : FileSystem) (follow : Bool) :
    (links : Nat) → ObjectId → List ObjectId → List String → Except ErrorNumber Place
  | 0 => walkWith fs follow fun _ _ _ => .error .tooManyLinks
  | links + 1 => walkWith fs follow (walk fs follow links)

/-- Walks the steps that a path is made of. Paths that no call takes are refused before the walk. -/
def walkSteps (fs : FileSystem) (follow : Bool) (path : String) (steps : List String) :
    Except SystemError Place :=
  if path.toList.contains '\x00' then .error .nulInPath
  else if path.isEmpty then .error (.numbered .noEntry)
  else if path.utf8ByteSize > maxPath then .error (.numbered .nameTooLong)
  else
    let place :=
      match Path.isAbsolute path, fs.working with
      | false, dir :: above => fs.walk follow maxLinks dir above steps
      | _, _ => fs.walk follow maxLinks fs.root [] steps
    place.mapError .numbered

/-- Where a path leads, a slash at its end left aside. -/
def locateName (fs : FileSystem) (follow : Bool) (path : String) : Except SystemError Place :=
  fs.walkSteps follow path (Path.components path)

/-- Where a path leads. A slash at its end asks for a directory, as a last component `.` does. -/
def locate (fs : FileSystem) (follow : Bool) (path : String) : Except SystemError Place :=
  fs.walkSteps follow path
    (Path.components path ++ (if Path.endsInSlash path then ["."] else []))

def resolve (fs : FileSystem) (follow : Bool) (path : String) : Except SystemError ObjectId :=
  match fs.locate follow path with
  | .error error => .error error
  | .ok (.directory id _) => .ok id
  | .ok (.entry _ _ _ (some id)) => .ok id
  | .ok (.entry _ _ _ none) => .error (.numbered .noEntry)

/-! ## Changing objects and names -/

/-- The file system with another object under a number. -/
def setObject (fs : FileSystem) (id : ObjectId) (object : FileObject) : FileSystem :=
  { fs with objects := (id, object) :: fs.objects.filter (·.1 != id) }

/-- The file system with a name of a directory standing for an object. -/
def setEntry (fs : FileSystem) (dir : ObjectId) (name : String) (id : ObjectId) : FileSystem :=
  fs.setObject dir (.directory ((name, id) :: (fs.entriesOf dir).filter (·.1 != name)))

/-- The file system without a name of a directory. -/
def dropEntry (fs : FileSystem) (dir : ObjectId) (name : String) : FileSystem :=
  fs.setObject dir (.directory ((fs.entriesOf dir).filter (·.1 != name)))

/-- The file system with a new object under a name of a directory. -/
def addObject (fs : FileSystem) (dir : ObjectId) (name : String) (object : FileObject) :
    FileSystem :=
  { (fs.setObject fs.next object).setEntry dir name fs.next with next := fs.next + 1 }

/-- A file system with nothing but its root and an empty working directory in it. -/
def empty : FileSystem where
  objects := [(0, .directory [("work", 1)]), (1, .directory [])]
  root := 0
  working := [1, 0]
  next := 2

end FileSystem

end NetplanEditor
