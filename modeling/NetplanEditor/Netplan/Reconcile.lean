import NetplanEditor.FileSystem.Error
import NetplanEditor.Netplan.Phase

/-!
Putting saved documents into effect: generate, then apply, each at most once.

Apply is never attempted after a generate that failed, and nothing is tried twice. What runs a
phase is a parameter, so the same order holds for a real program and for any other runner.
-/

namespace NetplanEditor

/-- Both phases of a reconciliation that succeeded. -/
structure ReconcileReport where
  generate : PhaseOutput
  apply : PhaseOutput
  deriving DecidableEq, Repr

/-- The exit code of a reconciliation is that of its last phase. -/
def ReconcileReport.exitCode (report : ReconcileReport) : ExitCode := report.apply.exitCode

inductive ReconcileError
  | generateFailed (output : PhaseOutput)
  | applyFailed (generate apply : PhaseOutput)
  | spawn (phase : Phase) (program : String) (cause : SystemError)
  deriving DecidableEq, Repr

namespace ReconcileError

def message : ReconcileError → String
  | generateFailed output => s!"netplan generate failed: {output.describe}"
  | applyFailed generate apply =>
    s!"netplan apply failed: {apply.describe}\nafter {generate.describe}"
  | spawn phase program cause =>
    s!"Failed to run '{program} {phase.argument}': {cause.message}"

/-- The exit code of the phase that failed, where one ran to its end. -/
def exitCode? : ReconcileError → Option ExitCode
  | generateFailed output => some output.exitCode
  | applyFailed _ apply => some apply.exitCode
  | spawn .. => none

end ReconcileError

structure Reconciler (m : Type → Type) where
  /-- Runs a phase to its end. A phase that ends in failure is no error here. -/
  runPhase : Phase → m (Except ReconcileError PhaseOutput)

variable {m : Type → Type} [Monad m] [MonadLog m]

/-- Runs a phase and logs its output; the phase has to succeed, and `failure` is the error of one
that does not. -/
def Reconciler.complete (reconciler : Reconciler m) (phase : Phase)
    (failure : PhaseOutput → ReconcileError) : m (Except ReconcileError PhaseOutput) := do
  match ← reconciler.runPhase phase with
  | .error error => return .error error
  | .ok output =>
    MonadLog.logAll output.logEvents
    return if output.success then .ok output else .error (failure output)

/-- Runs generate and then apply, stopping at the first failure. -/
def Reconciler.reconcile (reconciler : Reconciler m) : m (Except ReconcileError ReconcileReport) := do
  match ← reconciler.complete .generate .generateFailed with
  | .error error => return .error error
  | .ok generate =>
    match ← reconciler.complete .apply (.applyFailed generate) with
    | .error error => return .error error
    | .ok apply =>
      MonadLog.logAll [.info "Configuration applied"]
      return .ok ⟨generate, apply⟩

end NetplanEditor
