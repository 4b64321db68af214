import NetplanEditor.Action
import NetplanEditor.Netplan.Reconcile
import NetplanEditor.Store.Basic

/-!
Performing one action: load, change, save, and put into effect.

A change that changes nothing is saved and put into effect all the same. A dry run stops before the
save and shows the text that would have been saved. Nothing is tried twice.
-/

namespace NetplanEditor

/-- What an action that succeeded has to show. -/
inductive Outcome
  | dhcp (state : DhcpState)
  | reconciled (report : ReconcileReport)
  | rendered (text : String)
  | skipped
  deriving DecidableEq, Repr

/-- The exit code that an outcome asks for. -/
def Outcome.exitCode : Outcome → ExitCode
  | dhcp state => state.exitCode
  | reconciled report => report.exitCode
  | rendered _ | skipped => 0

inductive ActionError
  | load (cause : LoadError)
  | edit (cause : EditError)
  /-- The text for a dry run could not be made. -/
  | render (cause : DocumentError)
  | save (cause : SaveError)
  | reconcile (cause : ReconcileError)
  deriving DecidableEq, Repr

namespace ActionError

def message : ActionError → String
  | load cause => cause.message
  | edit cause => cause.message
  | render cause => cause.message
  | save cause => cause.message
  | reconcile cause => cause.message

/-- The exit code of the phase that failed, where a phase is what failed. -/
def exitCode? : ActionError → Option ExitCode
  | reconcile cause => cause.exitCode?
  | _ => none

end ActionError

/-- What performs actions: a store, what puts saved documents into effect, and whether to do so at
all. -/
structure Engine (m : Type → Type) where
  store : Store m
  reconciler : Reconciler m
  dryRun : Bool := false

namespace Engine

variable {m : Type → Type} [Monad m] [MonadLog m]

def reconcile (engine : Engine m) : m (Except ActionError Outcome) := do
  match ← engine.reconciler.reconcile with
  | .error error => return .error (.reconcile error)
  | .ok report => return .ok (.reconciled report)

def answer (engine : Engine m) (interface : String) (family : Family) :
    m (Except ActionError Outcome) := do
  match ← engine.store.load interface with
  | .error error => return .error (.load error)
  | .ok document =>
    let state := document.dhcpState family
    MonadLog.logAll [.info s!"{family.dhcpKey} on {interface} is {state.name}"]
    return .ok (.dhcp state)

/-- Puts what is on disk into effect again. -/
def restart (engine : Engine m) : m (Except ActionError Outcome) := do
  if engine.dryRun then
    MonadLog.logAll [.info "Dry run: not running netplan"]
    return .ok .skipped
  else engine.reconcile

/-- Saves a changed document and puts it into effect. -/
def commit (engine : Engine m) (document : Document) : m (Except ActionError Outcome) := do
  match ← engine.store.save document with
  | .error error => return .error (.save error)
  | .ok () => engine.reconcile

/-- Shows the text of a changed document. -/
def preview (document : Document) : m (Except ActionError Outcome) := do
  MonadLog.logAll [.info "Dry run: not saving or applying"]
  match document.render with
  | .error error => return .error (.render error)
  | .ok text => return .ok (.rendered text)

/-- Loads the document, changes it, and commits the change or shows it. -/
def change (engine : Engine m) (interface : String) (edit : Edit) :
    m (Except ActionError Outcome) := do
  match ← engine.store.load interface with
  | .error error => return .error (.load error)
  | .ok document =>
    match ← (edit.apply document).share with
    | .error error => return .error (.edit error)
    | .ok document => if engine.dryRun then preview document else engine.commit document

def perform (engine : Engine m) (interface : String) (action : Action) :
    m (Except ActionError Outcome) := do
  MonadLog.logAll [.info s!"{action.name} on {interface}"]
  match action with
  | .getDhcp family => engine.answer interface family
  | .restart => engine.restart
  | .change edit => engine.change interface edit

end Engine

end NetplanEditor
