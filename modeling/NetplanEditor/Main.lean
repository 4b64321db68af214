import NetplanEditor.App

/-!
The command-line program. It answers the calls of a computation by the files of the machine, writes
the log to the standard error output, and exits with the code that the computation ends with. It has
no means to run other programs, so a phase of netplan never starts.
-/

namespace NetplanEditor.Main

/-- The number of a failure that the library has a name for. -/
def numberOf? (code : UInt32) : Option ErrorNumber :=
  [.notPermitted, .noEntry, .accessDenied, .entryExists, .notADirectory, .isADirectory,
    .nameTooLong, .tooManyLinks].find? fun number => number.code == code.toNat

/-- The number that a failure comes with. -/
def codeOf? : IO.Error → Option UInt32
  | .alreadyExists _ code _ | .noFileOrDirectory _ code _ | .permissionDenied _ code _
  | .inappropriateType _ code _ | .invalidArgument _ code _ | .noSuchThing _ code _
  | .resourceExhausted _ code _ | .interrupted _ code _ | .otherError code _
  | .resourceBusy code _ | .resourceVanished code _ | .unsupportedOperation code _
  | .hardwareFault code _ | .unsatisfiedConstraints code _ | .illegalOperation code _
  | .protocolError code _ | .timeExpired code _ => some code
  | .unexpectedEof | .userError _ => none

def causeOf (error : IO.Error) : SystemError :=
  match (codeOf? error).bind numberOf? with
  | some number => .numbered number
  | none => .other (toString error)

/-- Makes a call, whose failure is an answer. -/
def attempt {α : Type} (call : IO α) : IO (Except SystemError α) := do
  try return .ok (← call)
  catch error => return .error (causeOf error)

/-- Something can be opened at the path. -/
def canOpen (path : String) : IO Bool := do
  return (← attempt (IO.FS.Handle.mk path .read)).isOk

def perform {α : Type} : Routine α → IO α
  | .done value => return value
  | .isPresent path next => do perform (next (← canOpen path))
  | .isDirectory path next => do perform (next (← canOpen (path ++ "/.")))
  | .read path next => do perform (next (← attempt (IO.FS.readBinFile path)))
  | .makeDirectory path next => do perform (next (← attempt (IO.FS.createDir path)))
  | .write path content next => do perform (next (← attempt (IO.FS.writeBinFile path content)))
  | .remove path next => do perform (next (← attempt (IO.FS.removeFile path)))
  | .link old new next => do perform (next (← attempt (IO.FS.hardLink old new)))
  | .copy old new next => do
    perform (next (← attempt (IO.FS.readBinFile old >>= IO.FS.writeBinFile new)))
  | .rename old new next => do perform (next (← attempt (IO.FS.rename old new)))
  | .run _ _ next => perform (next (.error .absent))
  | .log event next => do
    IO.eprintln event.line
    perform next
  | .print text next => do
    IO.print text
    perform next

end NetplanEditor.Main

def main (words : List String) : IO UInt32 := do
  let ending ← NetplanEditor.Main.perform (NetplanEditor.App.run words)
  IO.eprint ending.notice
  return ending.code.toUInt32
