import NetplanEditor.Netplan.Reconcile
import NetplanEditor.Routine.Basic
import NetplanEditor.Text.Utf8

/-!
Running the phases through a program: `<program> generate` and `<program> apply`. The program is
waited for without a limit, and what it writes is read as text whatever its bytes.
-/

namespace NetplanEditor

/-- The captured output of a program as the output of a phase. -/
def PhaseOutput.ofProcess (phase : Phase) (result : ProcessResult) : PhaseOutput where
  phase := phase
  status := result.status
  stdout := Text.lossy result.stdout
  stderr := Text.lossy result.stderr

def runProgram (program : String) (phase : Phase) : Routine (Except ReconcileError PhaseOutput) :=
  .log (.debug s!"Running {program} {phase.argument}") <|
    .run program phase fun answer =>
      .done <|
        match answer with
        | .error cause => .error (.spawn phase program cause)
        | .ok result => .ok (.ofProcess phase result)

def Reconciler.ofProgram (program : String) : Reconciler Routine where
  runPhase := runProgram program

end NetplanEditor
