import NetplanEditor.Document.Read
import NetplanEditor.FileSystem.Error

/-!
Where documents are kept.

A store gives the skeleton for an interface that has no document yet, but a document that exists and
cannot be read is an error, never a skeleton.
-/

namespace NetplanEditor

/-- Why an existing document could not be loaded. -/
inductive LoadError
  | unreadable (path : String) (cause : SystemError)
  /-- It is not the document of the interface. -/
  | invalid (path : String) (cause : DocumentError)
  deriving DecidableEq, Repr

def LoadError.message : LoadError → String
  | unreadable path cause => s!"Failed to read '{path}': {cause.message}"
  | invalid path cause => s!"Failed to parse '{path}': {cause.message}"

/-- Why a document could not be saved. -/
inductive SaveError
  | unwritable (cause : DocumentError)
  /-- Its directory or its text could not be written. -/
  | notWritten (path : String) (cause : SystemError)
  | notBackedUp (path backup : String) (cause : SystemError)
  /-- The new document could not be put in place. -/
  | notRenamed (old new : String) (cause : SystemError)
  deriving DecidableEq, Repr

def SaveError.message : SaveError → String
  | unwritable cause => s!"Failed to serialize document: {cause.message}"
  | notWritten path cause => s!"Failed to write '{path}': {cause.message}"
  | notBackedUp path backup cause =>
    s!"Failed to back up '{path}' to '{backup}': {cause.message}"
  | notRenamed old new cause => s!"Failed to rename '{old}' to '{new}': {cause.message}"

/-- A place where documents are kept, one for each interface. -/
structure Store (m : Type → Type) where
  /-- The document of an interface, or its skeleton if there is none yet. -/
  load : (interface : String) → m (Except LoadError Document)
  /-- Replaces the document of the interface that it is for. -/
  save : Document → m (Except SaveError Unit)

end NetplanEditor
