import NetplanEditor.Engine.Basic

/-!
Performing actions on a stage: one text held in memory takes the place of the files, and a script
takes the place of netplan.

The stage records every call in order, so that what an engine does, and in which order, can be seen
afterwards. The script says which calls fail; a save that fails is recorded and changes nothing.
-/

namespace NetplanEditor

inductive Call
  | load (interface : String)
  | save (interface : String)
  | run (phase : Phase)
  deriving DecidableEq, Repr

/-- What is seen of the work of an engine. -/
structure Stage where
  text : Option String := none
  calls : List Call := []
  log : List LogEvent := []
  deriving DecidableEq, Repr

structure Script where
  loadFailure : Option LoadError := none
  saveFailure : Option SaveError := none
  phase : Phase → Except ReconcileError PhaseOutput

abbrev Rehearsal := StateM Stage

namespace Rehearsal

def record (call : Call) : Rehearsal Unit :=
  modify fun stage => { stage with calls := stage.calls ++ [call] }

instance : MonadLog Rehearsal where
  logAll events := modify fun stage => { stage with log := stage.log ++ events }

/-- The path that the text in memory goes by. -/
def pathFor (interface : String) : String := s!"mem/{interface}.yaml"

/-- Loads the document that the text is. -/
def load (script : Script) (interface : String) : Rehearsal (Except LoadError Document) := do
  record (.load interface)
  match script.loadFailure with
  | some error => return .error error
  | none =>
    match (← get).text with
    | none => return .ok (.skeleton interface)
    | some text =>
      return (← (Document.parse interface text).share).mapError (.invalid (pathFor interface))

/-- Replaces the text by that of the document. -/
def save (script : Script) (document : Document) : Rehearsal (Except SaveError Unit) := do
  record (.save document.interface)
  match script.saveFailure, document.render with
  | some error, _ => return .error error
  | none, .error error => return .error (.unwritable error)
  | none, .ok text =>
    modify fun stage => { stage with text := some text }
    return .ok ()

/-- Runs a phase as the script says. -/
def runPhase (script : Script) (phase : Phase) :
    Rehearsal (Except ReconcileError PhaseOutput) := do
  record (.run phase)
  return script.phase phase

/-- The engine that works on a stage. -/
def engine (script : Script) (dryRun : Bool) : Engine Rehearsal where
  store := { load := load script, save := save script }
  reconciler := { runPhase := runPhase script }
  dryRun := dryRun

end Rehearsal

end NetplanEditor
