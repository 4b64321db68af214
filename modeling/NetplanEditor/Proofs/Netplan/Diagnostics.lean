import Mathlib.Data.List.DropRight
import NetplanEditor.Netplan.Reconcile

/-!
# What a reconciliation runs and tells

Here a reconciliation is watched: each phase that it asks for is kept with the answer, and each event
that it logs, in the order in which they come (`Watched`). Whatever runs the phases may answer as it
likes, and differently after everything that has happened. There are five ways in which this can go
(`Way`), and they show that no phase is run out of turn and that nothing a phase has written is lost,
neither to the log nor to the result (`reconcile_diagnosed`).
-/

namespace NetplanEditor

/-! ## Watching -/

/-- What happens in a reconciliation: a phase is asked for and answered, or an event is logged. -/
inductive Happening
  | ran (phase : Phase) (answer : Except ReconcileError PhaseOutput)
  | logged (event : LogEvent)

namespace Happening

/-- The phase that is asked for, where one is. -/
def phase? : Happening → Option Phase
  | ran phase _ => some phase
  | logged _ => none

/-- The output of a phase that comes to its end. -/
def output? : Happening → Option PhaseOutput
  | ran _ (.ok output) => some output
  | ran _ (.error _) => none
  | logged _ => none

def event? : Happening → Option LogEvent
  | ran .. => none
  | logged event => some event

end Happening

/-- Computations of which all that happens is kept, oldest first. -/
abbrev Watched := StateM (List Happening)

instance : MonadLog Watched where
  logAll events := modify fun course => course ++ events.map .logged

namespace Reconciler

/-- The answers to the phases, given all that has happened before. -/
abbrev Answers := List Happening → Phase → Except ReconcileError PhaseOutput

variable {answers : Answers} {course : List Happening} {output : PhaseOutput}
  {result : Except ReconcileError ReconcileReport}

/-- The reconciler whose phases are answered like this. What else the answering does, and what it logs
itself, is not kept. -/
def watched (answers : Answers) : Reconciler Watched where
  runPhase phase := do
    let answer := answers (← get) phase
    modify fun course => course ++ [.ran phase answer]
    return answer

/-- How a watched reconciliation ends. -/
def outcome (answers : Answers) : Except ReconcileError ReconcileReport :=
  ((watched answers).reconcile.run []).1

/-- All that happens in a watched reconciliation. -/
def happenings (answers : Answers) : List Happening := ((watched answers).reconcile.run []).2

/-! ## The ways it can go -/

/-- A phase comes to its end, and its output is logged. -/
def finished (phase : Phase) (output : PhaseOutput) : List Happening :=
  .ran phase (.ok output) :: output.logEvents.map .logged

/-- The ways in which a reconciliation can go: it stops at the first phase that does not start or that
fails, or it is through. -/
inductive Way : List Happening → Except ReconcileError ReconcileReport → Prop
  | unstarted (error : ReconcileError) : Way [.ran .generate (.error error)] (.error error)
  | ungenerated {generate : PhaseOutput} (failed : generate.status ≠ some 0) :
    Way (finished .generate generate) (.error (.generateFailed generate))
  | generated {generate : PhaseOutput} (passed : generate.status = some 0) (error : ReconcileError) :
    Way (finished .generate generate ++ [.ran .apply (.error error)]) (.error error)
  | unapplied {generate apply : PhaseOutput} (passed : generate.status = some 0)
    (failed : apply.status ≠ some 0) :
    Way (finished .generate generate ++ finished .apply apply)
      (.error (.applyFailed generate apply))
  | applied {generate apply : PhaseOutput} (passed : generate.status = some 0)
    (passed' : apply.status = some 0) :
    Way (finished .generate generate ++ finished .apply apply ++
      [.logged (.info "Configuration applied")]) (.ok ⟨generate, apply⟩)

theorem success_iff : output.success = true ↔ output.status = some 0 := by
  rw [PhaseOutput.success, beq_iff_eq]

theorem run_logAll (events : List LogEvent) (course : List Happening) :
    (MonadLog.logAll events : Watched Unit).run course = pure ((), course ++ events.map .logged) :=
  rfl

theorem run_runPhase (answers : Answers) (phase : Phase) (course : List Happening) :
    ((watched answers).runPhase phase).run course =
      pure (answers course phase, course ++ [.ran phase (answers course phase)]) :=
  rfl

/-- A phase that does not start leaves its error; one that comes to its end leaves its output in the
log, and goes on if it has succeeded. -/
theorem run_complete (answers : Answers) (phase : Phase) (failure : PhaseOutput → ReconcileError)
    (course : List Happening) :
    ((watched answers).complete phase failure).run course =
      match answers course phase with
      | .error error => pure (.error error, course ++ [.ran phase (.error error)])
      | .ok output => pure (if output.success then .ok output else .error (failure output),
        course ++ finished phase output) := by
  rw [complete, StateT.run_bind, run_runPhase, pure_bind]
  cases answers course phase with
  | error error => rfl
  | ok output => simp only [StateT.run_bind, run_logAll, pure_bind, finished, List.append_assoc,
      List.singleton_append, StateT.run_pure]

/-- Every watched reconciliation goes one of the ways. -/
theorem reconcile_way (answers : Answers) : Way (happenings answers) (outcome answers) := by
  rw [happenings, outcome, reconcile, StateT.run_bind, run_complete]
  cases answers [] .generate with
  | error error => exact .unstarted error
  | ok generate =>
      rw [pure_bind]
      cases passed : generate.success with
      | false => exact .ungenerated (mt success_iff.mpr (by simp [passed]))
      | true =>
          have passed := success_iff.mp passed
          simp only [if_true, StateT.run_bind, run_complete, List.nil_append]
          cases answers (finished .generate generate) .apply with
          | error error => exact .generated passed error
          | ok apply =>
              rw [pure_bind]
              cases passed' : apply.success with
              | false => exact .unapplied passed (mt success_iff.mpr (by simp [passed']))
              | true => exact .applied passed (success_iff.mp passed')

/-! ## What is told -/

/-- The text without the blanks at its end. -/
def rightTrimmed (text : String) : String := String.ofList (text.toList.rdropWhile isBlank)

/-- What the log is to say of a phase that came to its end: one event for each stream in which there is
more than blanks. -/
def told (output : PhaseOutput) : List LogEvent :=
  [("stdout", output.stdout), ("stderr", output.stderr)].flatMap fun (stream, text) =>
    if text.toList.any (!isBlank ·) then
      [⟨if output.status = some 0 then .info else .error,
        output.phase.argument ++ " " ++ stream ++ ": " ++ rightTrimmed text⟩]
    else []

theorem streamEvents_eq (output : PhaseOutput) (stream text : String) :
    output.streamEvents stream text =
      if text.toList.any (!isBlank ·) then
        [⟨if output.status = some 0 then .info else .error,
          output.phase.argument ++ " " ++ stream ++ ": " ++ rightTrimmed text⟩]
      else [] := by
  have blank : Text.isBlankText text = true ↔ ¬ text.toList.any (!isBlank ·) = true := by
    simp [Text.isBlankText]
  unfold PhaseOutput.streamEvents
  by_cases filled : text.toList.any (!isBlank ·) = true
  · rw [if_pos filled, if_neg (mt blank.mp (not_not_intro filled))]
    dsimp only
    by_cases passed : output.status = some 0
    · rw [if_pos passed, if_pos (success_iff.mpr passed)]
      rfl
    · rw [if_neg passed, if_neg (mt success_iff.mp passed)]
      rfl
  · rw [if_neg filled, if_pos (blank.mpr filled)]

theorem logEvents_eq (output : PhaseOutput) : output.logEvents = told output := by
  rw [PhaseOutput.logEvents, streamEvents_eq, streamEvents_eq, told, List.flatMap_cons,
    List.flatMap_cons, List.flatMap_nil, List.append_nil]

/-! ## What is carried -/

/-- The outputs that a result carries, in the order of their phases. -/
def carried : Except ReconcileError ReconcileReport → List PhaseOutput
  | .ok report => [report.generate, report.apply]
  | .error (.generateFailed generate) => [generate]
  | .error (.applyFailed generate apply) => [generate, apply]
  | .error (.spawn ..) => []

/-- The text stands in the message of the error. -/
def Shows (error : ReconcileError) (text : String) : Prop := text.toList <:+: error.message.toList

/-- An error shows a text if its message is that text with something around it. -/
theorem shows_of_eq {error : ReconcileError} {before text after : String}
    (message : error.message = before ++ text ++ after) : Shows error text := by
  refine ⟨before.toList, after.toList, ?_⟩
  rw [message, String.toList_append, String.toList_append]

/-- An error shows both streams of an output that is described in its message. -/
theorem shows_of_describe {error : ReconcileError} {before after : String}
    (message : error.message = before ++ output.describe ++ after) :
    Shows error (rightTrimmed output.stdout) ∧ Shows error (rightTrimmed output.stderr) := by
  obtain ⟨ending, describes⟩ : ∃ ending, output.describe =
      ending ++ "\nstdout: " ++ rightTrimmed output.stdout ++
        "\nstderr: " ++ rightTrimmed output.stderr := ⟨_, rfl⟩
  rw [describes] at message
  constructor
  · exact @shows_of_eq error (before ++ ending ++ "\nstdout: ") _
      ("\nstderr: " ++ rightTrimmed output.stderr ++ after)
      (by simp only [message, String.append_assoc])
  · exact @shows_of_eq error
      (before ++ ending ++ "\nstdout: " ++ rightTrimmed output.stdout ++ "\nstderr: ") _ after
      (by simp only [message, String.append_assoc])

/-- What an error carries can be read in its message. -/
theorem shows_carried {error : ReconcileError} (member : output ∈ carried (.error error)) :
    Shows error (rightTrimmed output.stdout) ∧ Shows error (rightTrimmed output.stderr) := by
  cases error with
  | generateFailed generate =>
      cases List.mem_singleton.mp member
      exact @shows_of_describe _ _ "netplan generate failed: " "" (String.append_empty).symm
  | applyFailed generate apply =>
      rcases List.mem_pair.mp member with rfl | rfl
      · exact @shows_of_describe _ _ ("netplan apply failed: " ++ apply.describe ++ "\nafter ") ""
          (String.append_empty).symm
      · exact @shows_of_describe _ _ "netplan apply failed: " ("\nafter " ++ generate.describe)
          (String.append_assoc ..)
  | spawn => cases member

/-! ## What is seen -/

/-- The phases that are asked for. -/
def asked (course : List Happening) : List Phase := course.filterMap Happening.phase?

/-- The outputs of the phases that come to their end. -/
def completed (course : List Happening) : List PhaseOutput := course.filterMap Happening.output?

/-- The events that are logged. -/
def events (course : List Happening) : List LogEvent := course.filterMap Happening.event?

theorem filterMap_finished {α : Type} (view : Happening → Option α) (phase : Phase)
    (output : PhaseOutput) :
    (finished phase output).filterMap view =
      (view (.ran phase (.ok output))).toList ++ (told output).filterMap (view ∘ .logged) := by
  rw [finished, List.filterMap_cons, List.filterMap_map, logEvents_eq]
  cases view (.ran phase (.ok output)) <;> rfl

theorem ran_mem_finished {phase other : Phase} {answer : Except ReconcileError PhaseOutput} :
    .ran other answer ∈ finished phase output ↔ other = phase ∧ answer = .ok output := by
  simp [finished]

/-- The event that closes a reconciliation that is through. -/
def closing : Except ReconcileError ReconcileReport → List LogEvent
  | .ok _ => [.info "Configuration applied"]
  | .error _ => []

/-- What a course of happenings and a result tell of each other and of the phases. -/
structure Diagnosed (course : List Happening) (result : Except ReconcileError ReconcileReport) :
    Prop where
  /-- Generate is run first, and no phase is run twice. -/
  order : asked course = [.generate] ∨ asked course = [.generate, .apply]
  /-- Apply is run after a generate that has been started and has exited with status 0, and else not. -/
  applies : .apply ∈ asked course ↔
    ∃ output, .ran .generate (.ok output) ∈ course ∧ output.status = some 0
  succeeds : (∃ report, result = .ok report) ↔
    ∀ phase, ∃ output, .ran phase (.ok output) ∈ course ∧ output.status = some 0
  /-- The error of a phase that could not be started is the result. -/
  unstarted : ∀ phase error, .ran phase (.error error) ∈ course → result = .error error
  /-- If all phases that were asked for came to their end, the result carries what each of them gave. -/
  carries : (∀ phase error, .ran phase (.error error) ∉ course) → carried result = completed course
  tells : events course = (completed course).flatMap told ++ closing result
  /-- What an error carries is shown. -/
  shows : ∀ error, result = .error error → ∀ output ∈ carried result,
    Shows error (rightTrimmed output.stdout) ∧ Shows error (rightTrimmed output.stderr)

theorem Way.order (way : Way course result) :
    asked course = [.generate] ∨ asked course = [.generate, .apply] := by
  cases way <;> simp [asked, filterMap_finished, Happening.phase?, Function.comp_def]

theorem Way.applies (way : Way course result) :
    .apply ∈ asked course ↔
      ∃ output, .ran .generate (.ok output) ∈ course ∧ output.status = some 0 := by
  cases way <;>
    simp_all [asked, filterMap_finished, ran_mem_finished, Happening.phase?, Function.comp_def]

theorem Way.succeeds (way : Way course result) :
    (∃ report, result = .ok report) ↔
      ∀ phase, ∃ output, .ran phase (.ok output) ∈ course ∧ output.status = some 0 := by
  have both (P : Phase → Prop) : (∀ phase, P phase) ↔ P .generate ∧ P .apply :=
    ⟨fun all => ⟨all _, all _⟩, fun ⟨generate, apply⟩ phase => by cases phase <;> assumption⟩
  rw [both]
  cases way <;> simp_all [ran_mem_finished]

theorem Way.result_of_error (way : Way course result) {phase : Phase} {error : ReconcileError}
    (fails : .ran phase (.error error) ∈ course) : result = .error error := by
  cases way <;> simp_all [ran_mem_finished]

theorem Way.tells (way : Way course result) :
    events course = (completed course).flatMap told ++ closing result := by
  cases way <;>
    simp [events, completed, filterMap_finished, List.filterMap_cons, closing, Happening.event?,
      Happening.output?, Function.comp_def]

theorem Way.carries (way : Way course result)
    (started : ∀ phase error, .ran phase (.error error) ∉ course) :
    carried result = completed course := by
  cases way with
  | unstarted error => exact (started .generate error (by simp)).elim
  | generated _ error => exact (started .apply error (by simp)).elim
  | ungenerated | unapplied | applied =>
      simp [completed, filterMap_finished, List.filterMap_cons, carried, Happening.output?,
        Function.comp_def]

/-- However the phases are answered, they are run in their order and only as long as they succeed, and
whatever a phase has written is logged and carried by the result. -/
theorem reconcile_diagnosed (answers : Answers) : Diagnosed (happenings answers) (outcome answers) :=
  have way := reconcile_way answers
  { order := way.order
    applies := way.applies
    succeeds := way.succeeds
    unstarted := fun _ _ => way.result_of_error
    carries := way.carries
    tells := way.tells
    shows := fun _ same _ member => shows_carried (same ▸ member) }

/-- What apply has written before a signal killed it is logged as an error. -/
example :
    events (happenings fun _ phase =>
      .ok ⟨phase, if phase = .generate then some 0 else none, "done\n", " \t"⟩) =
        [.info "generate stdout: done", .error "apply stdout: done"] := by
  decide +kernel

end Reconciler

end NetplanEditor
