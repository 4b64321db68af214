import NetplanEditor.Log
import NetplanEditor.Text.Blank
import NetplanEditor.Text.Numeral

/-!
The two phases in which netplan puts documents into effect, and what a finished phase leaves behind.

`generate` renders the configuration of the backend and `apply` activates it. A phase that ran to
its end has a status, unless a signal killed it, and two captured streams of text.
-/

namespace NetplanEditor

/-- One step of putting the documents on disk into effect. -/
inductive Phase
  | generate
  | apply
  deriving DecidableEq, Repr

def Phase.argument : Phase → String
  | generate => "generate"
  | apply => "apply"

/-- The result of a phase that ran to its end. -/
structure PhaseOutput where
  phase : Phase
  /-- The exit status, or nothing after death by a signal. -/
  status : Option Int
  stdout : String
  stderr : String
  deriving DecidableEq, Repr

abbrev ExitCode := UInt8

namespace PhaseOutput

def success (output : PhaseOutput) : Bool := output.status == some 0

/-- The code to exit with after this phase: its own status where that is an exit code, and 1 after
a signal or a status that no exit code can carry. -/
def exitCode (output : PhaseOutput) : ExitCode :=
  match output.status with
  | some status => if 0 ≤ status ∧ status ≤ 255 then UInt8.ofNat status.toNat else 1
  | none => 1

/-- The event that shows one captured stream, unless the stream is blank. -/
def streamEvents (output : PhaseOutput) (stream text : String) : List LogEvent :=
  if Text.isBlankText text then []
  else
    let shown := s!"{output.phase.argument} {stream}: {Text.trimEnd text}"
    [if output.success then .info shown else .error shown]

/-- The captured streams as log events: information after success, errors after failure. -/
def logEvents (output : PhaseOutput) : List LogEvent :=
  output.streamEvents "stdout" output.stdout ++ output.streamEvents "stderr" output.stderr

/-- How the phase ended and what it wrote. -/
def describe (output : PhaseOutput) : String :=
  let ending :=
    match output.status with
    | some status => s!"{output.phase.argument} exited with status {Text.decimalInt status}"
    | none => s!"{output.phase.argument} was terminated by a signal"
  ending ++ "\nstdout: " ++ Text.trimEnd output.stdout ++ "\nstderr: " ++ Text.trimEnd output.stderr

end PhaseOutput

end NetplanEditor
