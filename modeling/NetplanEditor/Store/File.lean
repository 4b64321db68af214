import NetplanEditor.FileSystem.Path
import NetplanEditor.Routine.Basic
import NetplanEditor.Store.Basic

/-!
Documents kept as files of one directory.

A document is replaced in three steps: its new text is written beside it under a temporary name, the
file that is there keeps its content under the name of the backup, and the temporary file is moved
over it. The name of the document stands for a complete text at every moment. If the second or the
third step fails, the temporary file is removed.
-/

namespace NetplanEditor

/-- A directory of documents, whose names start with a common text. -/
structure FileStore where
  dir : String
  /-- What the name of every document starts with. -/
  start : String
  deriving DecidableEq, Repr

namespace FileStore

/-- What the name of the backup adds to that of the document. -/
def backupSuffix : String := ".bkp"

/-- What the temporary name adds to that of the document. -/
def temporarySuffix : String := ".tmp"

/-- The path of the document of an interface. -/
def pathFor (store : FileStore) (interface : String) : String :=
  Path.join store.dir (store.start ++ interface ++ ".yaml")

/-- The path of the backup of the document of an interface. -/
def backupFor (store : FileStore) (interface : String) : String :=
  store.pathFor interface ++ backupSuffix

/-! ## Loading -/

def load (store : FileStore) (interface : String) : Routine (Except LoadError Document) :=
  let path := store.pathFor interface
  .read path fun answer => do
    match answer with
    | .error cause =>
      if cause.isNotFound then
        MonadLog.logAll [.debug s!"{path} does not exist, using a skeleton"]
        return .ok (.skeleton interface)
      else return .error (.unreadable path cause)
    | .ok content =>
      match String.fromUTF8? content with
      | none => return .error (.unreadable path .notText)
      | some text => return (← (Document.parse interface text).share).mapError (.invalid path)

/-! ## Saving -/

/-- Makes a directory, and before it those above it that are missing; the list names them nearest
first. A directory that is there already is no failure. -/
def makeDirectories : (paths : List String) → Routine (Except SystemError Unit)
  | [] => return .ok ()
  | path :: above =>
    if path.isEmpty then return .ok ()
    else
      .makeDirectory path fun answer =>
        match answer with
        | .ok () => return .ok ()
        | .error cause =>
          if cause.isNotFound && !above.isEmpty then do
            match ← makeDirectories above with
            | .error cause => return .error cause
            | .ok () => .makeDirectory path (settle path)
          else settle path (.error cause)
where
  /-- The failure to make a directory counts only if no directory is there. -/
  settle (path : String) : Except SystemError Unit → Routine (Except SystemError Unit)
    | .ok () => return .ok ()
    | .error cause => .isDirectory path fun there =>
      return if there then .ok () else .error cause

/-- Gives the file at `path` the second name `backup`, or copies it there. -/
def keep (path backup : String) : Routine (Except SaveError Unit) :=
  .link path backup fun answer =>
    let kept : Routine (Except SaveError Unit) := do
      MonadLog.logAll [.debug s!"Previous document kept at {backup}"]
      return .ok ()
    match answer with
    | .ok () => kept
    | .error cause =>
      .log (.debug s!"Hard link to {backup} failed ({cause.message}), copying") <|
        .copy path backup fun answer =>
          match answer with
          | .ok () => kept
          | .error cause => return .error (.notBackedUp path backup cause)

/-- Keeps what stands at `path` as the backup, in place of an older one. -/
def backUp (path : String) : Routine (Except SaveError Unit) :=
  let backup := path ++ backupSuffix
  .isPresent path fun present =>
    if !present then return .ok ()
    else
      .remove backup fun answer =>
        match answer with
        | .ok () => keep path backup
        | .error cause =>
          if cause.isNotFound then keep path backup
          else return .error (.notBackedUp path backup cause)

/-- Moves the temporary file over the document. -/
def putInPlace (temporary path : String) : Routine (Except SaveError Unit) :=
  .rename temporary path fun answer =>
    return answer.mapError (.notRenamed temporary path)

/-- Backs up what stands at `path` and moves the temporary file there. -/
def replace (temporary path : String) : Routine (Except SaveError Unit) := do
  match ← backUp path with
  | .error error => return .error error
  | .ok () => putInPlace temporary path

/-- Removes the temporary file after a failure. -/
def discard (temporary : String) : Routine Unit :=
  .remove temporary fun answer =>
    match answer with
    | .ok () => return ()
    | .error cause =>
      MonadLog.logAll [.warn s!"Failed to remove {temporary}: {cause.message}"]

/-- Puts a text at a path whose directory exists. -/
def writeText (path text : String) : Routine (Except SaveError Unit) :=
  let temporary := path ++ temporarySuffix
  .write temporary text.toUTF8 fun answer => do
    match answer with
    | .error cause => return .error (.notWritten temporary cause)
    | .ok () =>
      match ← replace temporary path with
      | .ok () => return .ok ()
      | .error error =>
        discard temporary
        return .error error

/-- Makes the directory that a path is in. -/
def prepare (path : String) : Routine (Except SaveError Unit) :=
  match Path.parent? path with
  | none => return .ok ()
  | some parent => do
    match ← makeDirectories (if parent.isEmpty then [] else Path.ancestors parent) with
    | .error cause => return .error (.notWritten parent cause)
    | .ok () => return .ok ()

def save (store : FileStore) (document : Document) : Routine (Except SaveError Unit) := do
  let path := store.pathFor document.interface
  match document.render with
  | .error error => return .error (.unwritable error)
  | .ok text =>
    MonadLog.logAll [.debug s!"Writing {path}"]
    match ← prepare path with
    | .error error => return .error error
    | .ok () => writeText path text

def toStore (files : FileStore) : Store Routine where
  load := files.load
  save := files.save

end FileStore

end NetplanEditor
