import NetplanEditor.Proofs.App.DryRun
import NetplanEditor.Proofs.Routine.Trace

/-!
# The ways a run can go

The result of an action is made from what its calls have answered. `Course` lists all ways in which
the calls of an action can go on files, each with its result, and every run takes one of them
(`execute_course`), whichever of its calls fail and whatever netplan does. The parts of an action
are gone through in the order in which they run: loading, changing, saving, and the two phases.
-/

namespace NetplanEditor

open FileSystem (Given)
open Routine (Traced)

variable {reliable : Bool} {fs last : FileSystem} {trace : List Exchange}

/-! ## The phases -/

/-- What comes of a phase when the program that runs it has answered. -/
def phaseResult (program : String) (phase : Phase) (failure : PhaseOutput → ReconcileError) :
    Except SystemError ProcessResult → Except ReconcileError PhaseOutput
  | .error cause => .error (.spawn phase program cause)
  | .ok process =>
    let output := PhaseOutput.ofProcess phase process
    if output.success then .ok output else .error (failure output)

theorem phaseResult_ok {program : String} {phase : Phase} {failure : PhaseOutput → ReconcileError}
    {answer : Except SystemError ProcessResult} {output : PhaseOutput}
    (ok : phaseResult program phase failure answer = .ok output) :
    ∃ process, answer = .ok process ∧ process.status = some 0 ∧
      output = .ofProcess phase process := by
  cases answer with
  | error cause => cases ok
  | ok process =>
      simp only [phaseResult] at ok
      split at ok
      next success =>
        cases ok
        exact ⟨process, rfl, beq_iff_eq.mp success, rfl⟩
      next => cases ok

theorem phaseResult_error {program : String} {phase : Phase}
    {failure : PhaseOutput → ReconcileError} {answer : Except SystemError ProcessResult}
    {error : ReconcileError} (fails : phaseResult program phase failure answer = .error error) :
    (∃ cause, answer = .error cause ∧ error = .spawn phase program cause) ∨
      ∃ process, answer = .ok process ∧ process.status ≠ some 0 ∧
        error = failure (.ofProcess phase process) := by
  cases answer with
  | error cause =>
      cases fails
      exact Or.inl ⟨cause, rfl, rfl⟩
  | ok process =>
      simp only [phaseResult] at fails
      split at fails
      next => cases fails
      next failed =>
        cases fails
        exact Or.inr ⟨process, rfl, fun zero => failed (beq_iff_eq.mpr zero), rfl⟩

/-- The runs of a program in a reconciliation, and how it ends. -/
inductive Reconciles (program : String) :
    List Exchange → Except ReconcileError ReconcileReport → Prop
  | stopped {answer : Except SystemError ProcessResult} {error : ReconcileError} :
    phaseResult program .generate .generateFailed answer = .error error →
    Reconciles program [.run program .generate answer] (.error error)
  | failed {answer answer' : Except SystemError ProcessResult} {generate : PhaseOutput}
    {error : ReconcileError} :
    phaseResult program .generate .generateFailed answer = .ok generate →
    phaseResult program .apply (.applyFailed generate) answer' = .error error →
    Reconciles program [.run program .generate answer, .run program .apply answer'] (.error error)
  | finished {answer answer' : Except SystemError ProcessResult} {generate apply : PhaseOutput} :
    phaseResult program .generate .generateFailed answer = .ok generate →
    phaseResult program .apply (.applyFailed generate) answer' = .ok apply →
    Reconciles program [.run program .generate answer, .run program .apply answer']
      (.ok ⟨generate, apply⟩)

theorem complete_traced {program : String} {phase : Phase}
    {failure : PhaseOutput → ReconcileError} {result : Except ReconcileError PhaseOutput}
    (traced : Traced reliable fs ((Reconciler.ofProgram program).complete phase failure) trace result
      last) :
    ∃ answer, trace = [.run program phase answer] ∧
      phaseResult program phase failure answer = result := by
  obtain ⟨ran, between, early, late, rfl, first, rest⟩ := traced.of_bind
  cases first with
  | log first =>
      cases first with
      | @run _ _ _ _ answer _ _ _ first =>
          cases first
          refine ⟨answer, ?_⟩
          cases answer with
          | error cause =>
              cases rest
              exact ⟨rfl, rfl⟩
          | ok process =>
              cases rest.of_logged
              exact ⟨rfl, rfl⟩

theorem reconcile_traced {program : String} {result : Except ReconcileError ReconcileReport}
    (traced : Traced reliable fs (Reconciler.ofProgram program).reconcile trace result last) :
    Reconciles program trace result := by
  obtain ⟨ran, between, early, late, rfl, first, rest⟩ := traced.of_bind
  obtain ⟨answer, rfl, generated⟩ := complete_traced first
  cases ran with
  | error error =>
      cases rest
      exact .stopped generated
  | ok generate =>
      obtain ⟨ran, between, early, late, rfl, second, rest⟩ := rest.of_bind
      obtain ⟨answer', rfl, applied⟩ := complete_traced second
      cases ran with
      | error error =>
          cases rest
          exact .failed generated applied
      | ok apply =>
          cases rest.of_logged
          exact .finished generated applied

/-- What an action has to show for a reconciliation. -/
def reconciled : Except ReconcileError ReconcileReport → Except ActionError Outcome
  | .error error => .error (.reconcile error)
  | .ok report => .ok (.reconciled report)

namespace App

variable {config : Config} {result : Except ActionError Outcome}

/-! ## The action -/

/-- The action of a run, before its result is shown. -/
def execute (config : Config) : Routine (Except ActionError Outcome) :=
  (engineFor config).perform config.interface config.action

/-- The path of the document of a run. -/
def documentPath (config : Config) : String := (storeOf config).pathFor config.interface

/-- Reading the document of a run can be answered like this, and this is what is loaded then. -/
structure Loads (config : Config) (fs : FileSystem) (answer : Except SystemError ByteArray)
    (loaded : Except LoadError Document) : Prop where
  given : Given (fs.read (documentPath config)) answer
  found : (storeOf config).found config.interface answer = loaded

theorem load_traced {loaded : Except LoadError Document}
    (traced : Traced reliable fs ((storeOf config).load config.interface) trace loaded last) :
    ∃ answer, trace = [.read (documentPath config) answer] ∧ Loads config fs answer loaded ∧
      last = fs := by
  cases traced with
  | @read _ _ _ answer _ _ _ given rest =>
      refine ⟨answer, ?_⟩
      have loads {loaded : Except LoadError Document} {rest : List Exchange}
          (found : (storeOf config).found config.interface answer = loaded) (none : rest = []) :
          Exchange.read (documentPath config) answer :: rest =
            [.read (documentPath config) answer] ∧ Loads config fs answer loaded ∧ fs = fs :=
        ⟨by rw [none], ⟨given, found⟩, rfl⟩
      cases answer with
      | error cause =>
          dsimp only at rest
          split at rest
          next missing =>
            cases rest.of_logged
            exact loads (if_pos missing) rfl
          next present =>
            cases rest
            exact loads (if_neg present) rfl
      | ok content =>
          dsimp only at rest
          cases text : String.fromUTF8? content with
          | none =>
              rw [text] at rest
              cases rest
              refine loads ?_ rfl
              simp only [FileStore.found, text]
          | some text' =>
              rw [text] at rest
              cases rest.of_shared
              refine loads ?_ rfl
              simp only [FileStore.found, text]

/-- The calls of an action, and its result: one way for each place where an action can end. Of the
calls of a save it is only said that they run nothing. -/
inductive Course (config : Config) (fs : FileSystem) :
    Action → List Exchange → Except ActionError Outcome → Prop
  | unanswered {family : Family} {answer : Except SystemError ByteArray} {error : LoadError} :
    Loads config fs answer (.error error) →
    Course config fs (.getDhcp family) [.read (documentPath config) answer] (.error (.load error))
  | answered {family : Family} {answer : Except SystemError ByteArray} {document : Document} :
    Loads config fs answer (.ok document) →
    Course config fs (.getDhcp family) [.read (documentPath config) answer]
      (.ok (.dhcp (document.dhcpState family)))
  | skipped : config.dryRun = true → Course config fs .restart [] (.ok .skipped)
  | restarted {made : List Exchange} {result : Except ReconcileError ReconcileReport} :
    config.dryRun = false → Reconciles config.netplan made result →
    Course config fs .restart made (reconciled result)
  | shown {edit : Edit} {answer : Except SystemError ByteArray}
    {loaded : Except LoadError Document} : config.dryRun = true → Loads config fs answer loaded →
    Course config fs (.change edit) [.read (documentPath config) answer]
      (Engine.shown (edit.outcome loaded))
  | unchanged {edit : Edit} {answer : Except SystemError ByteArray}
    {loaded : Except LoadError Document} {error : ActionError} : config.dryRun = false →
    Loads config fs answer loaded → edit.changed loaded = .error error →
    Course config fs (.change edit) [.read (documentPath config) answer] (.error error)
  | unsaved {edit : Edit} {answer : Except SystemError ByteArray}
    {loaded : Except LoadError Document} {saving : List Exchange} {error : SaveError} :
    config.dryRun = false → Loads config fs answer loaded →
    (∀ exchange ∈ saving, exchange.IsQuiet) →
    Course config fs (.change edit) (.read (documentPath config) answer :: saving)
      (.error (.save error))
  | committed {edit : Edit} {answer : Except SystemError ByteArray}
    {loaded : Except LoadError Document} {saving made : List Exchange}
    {result : Except ReconcileError ReconcileReport} : config.dryRun = false →
    Loads config fs answer loaded → (∀ exchange ∈ saving, exchange.IsQuiet) →
    Reconciles config.netplan made result →
    Course config fs (.change edit) (.read (documentPath config) answer :: (saving ++ made))
      (reconciled result)

theorem engine_reconcile_traced
    (traced : Traced reliable fs (engineFor config).reconcile trace result last) :
    ∃ ran, Reconciles config.netplan trace ran ∧ result = reconciled ran := by
  obtain ⟨ran, between, early, late, rfl, first, rest⟩ := traced.of_bind
  refine ⟨ran, ?_⟩
  cases ran with
  | error error =>
      cases rest
      exact ⟨(List.append_nil early).symm ▸ reconcile_traced first, rfl⟩
  | ok report =>
      cases rest
      exact ⟨(List.append_nil early).symm ▸ reconcile_traced first, rfl⟩

theorem save_quiet {document : Document} {value : Except SaveError Unit}
    (traced : Traced reliable fs ((storeOf config).save document) trace value last) :
    ∀ exchange ∈ trace, exchange.IsQuiet := by
  cases renders : document.render with
  | error cause =>
      rw [(storeOf config).save_unwritable renders] at traced
      cases traced
      exact nofun
  | ok text => exact (traced.gives ((storeOf config).save_gives renders)).2 rfl

theorem preview_traced {document : Document}
    (traced : Traced reliable fs (Engine.preview document) trace result last) :
    trace = [] ∧ result = Engine.shown (.ok document.render) := by
  have shows := traced.of_logged
  cases renders : document.render with
  | error cause =>
      rw [renders] at shows
      cases shows
      exact ⟨rfl, rfl⟩
  | ok text =>
      rw [renders] at shows
      cases shows
      exact ⟨rfl, rfl⟩

theorem change_course {edit : Edit}
    (traced : Traced reliable fs ((engineFor config).change config.interface edit) trace result
      last) :
    Course config fs (.change edit) trace result := by
  obtain ⟨loaded, between, early, late, rfl, first, rest⟩ := traced.of_bind
  obtain ⟨answer, rfl, loads, rfl⟩ := load_traced first
  have ends {error : ActionError} (fails : edit.changed loaded = .error error) :
      Course config between (.change edit) ([.read (documentPath config) answer] ++ [])
        (.error error) := by
    cases dry : config.dryRun with
    | false => exact .unchanged dry loads fails
    | true =>
        have shown := @Course.shown config between edit answer _ dry loads
        rw [Edit.outcome, fails] at shown
        exact shown
  cases loaded with
  | error error =>
      cases rest
      exact ends rfl
  | ok document =>
      replace rest := rest.of_shared
      cases changes : (edit.apply document).value with
      | error error =>
          rw [changes] at rest
          cases rest
          exact ends (by rw [Edit.changed, changes]; rfl)
      | ok after =>
          rw [changes] at rest
          cases dry : config.dryRun with
          | true =>
              have isDry : (engineFor config).dryRun = true := dry
              dsimp only at rest
              rw [if_pos isDry] at rest
              obtain ⟨rfl, rfl⟩ := preview_traced rest
              have shown := @Course.shown config between edit answer _ dry loads
              rw [Edit.outcome, Edit.changed, changes] at shown
              exact shown
          | false =>
              have notDry : ¬ (engineFor config).dryRun = true := by simp [engineFor, dry]
              dsimp only at rest
              rw [if_neg notDry] at rest
              obtain ⟨saved, between, saving, made, rfl, save, rest⟩ := rest.of_bind
              have quiet := save_quiet save
              cases saved with
              | error error =>
                  cases rest
                  rw [List.append_nil]
                  exact .unsaved dry loads quiet
              | ok =>
                  obtain ⟨ran, reconciles, rfl⟩ := engine_reconcile_traced rest
                  exact @Course.committed _ _ _ _ _ saving made _ dry loads quiet reconciles

/-- Every run of an action takes one of the courses. -/
theorem execute_course
    (traced : Traced reliable fs (execute config) trace result last) :
    Course config fs config.action trace result := by
  have acts := traced.of_logged
  cases action : config.action with
  | getDhcp family =>
      rw [action] at acts
      obtain ⟨loaded, between, early, late, rfl, first, rest⟩ := acts.of_bind
      obtain ⟨answer, rfl, loads, rfl⟩ := load_traced first
      cases loaded with
      | error error =>
          cases rest
          exact .unanswered loads
      | ok document =>
          cases rest.of_logged
          exact .answered loads
  | restart =>
      rw [action] at acts
      dsimp only [Engine.restart] at acts
      cases dry : config.dryRun with
      | true =>
          have isDry : (engineFor config).dryRun = true := dry
          rw [if_pos isDry] at acts
          cases acts.of_logged
          exact .skipped dry
      | false =>
          have notDry : ¬ (engineFor config).dryRun = true := by simp [engineFor, dry]
          rw [if_neg notDry] at acts
          obtain ⟨ran, reconciles, rfl⟩ := engine_reconcile_traced acts
          exact .restarted dry reconciles
  | change edit =>
      rw [action] at acts
      exact change_course acts

end App

end NetplanEditor
