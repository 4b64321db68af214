import NetplanEditor.Proofs.App.Course

/-!
# What an exit code tells

The exit code of a run is read off the course that it takes (`Course.tells`): it tells whether the run
has succeeded, what a document says that was asked, and the status of a phase that failed, and all
other failures give one code (`exit_code_tells`). Of the program as a whole it is said what its code
tells to somebody who asks for DHCP (`get_dhcp_tells`).
-/

namespace NetplanEditor

open Routine (Traced)

variable {reliable : Bool} {fs last : FileSystem} {trace : List Exchange}

/-! ## The code of a reconciliation -/

/-- The exit code for the result of an action. -/
def codeOf : Except ActionError Outcome → ExitCode
  | .ok outcome => outcome.exitCode
  | .error error => error.exitCode?.getD Ending.programFailed

theorem codeOf_failed {error : ActionError} (other : ∀ cause, error ≠ .reconcile cause) :
    codeOf (.error error) = 70 := by
  cases error with
  | reconcile cause => exact (other cause rfl).elim
  | _ => rfl

/-- The code carries the status of a phase that failed: the status itself where a code can be that,
and 1 otherwise. -/
structure Carries (status : Option Int) (code : ExitCode) : Prop where
  own : ∀ number, status = some number → 1 ≤ number → number ≤ 255 → (code.toNat : Int) = number
  other : (∀ number, status = some number → number < 0 ∨ 255 < number) → code = 1
  nonzero : code ≠ 0

theorem carries_exitCode {output : PhaseOutput} (failed : output.status ≠ some 0) :
    Carries output.status output.exitCode := by
  unfold PhaseOutput.exitCode
  cases status : output.status with
  | none => exact ⟨nofun, fun _ => rfl, by decide⟩
  | some number =>
      dsimp only
      split
      next within =>
        have nonzero : number ≠ 0 := fun zero => failed (zero ▸ status)
        have small : (UInt8.ofNat number.toNat).toNat = number.toNat := by
          rw [UInt8.toNat_ofNat']
          omega
        refine ⟨?_, fun outside => ?_, fun zero => ?_⟩
        · rintro _ ⟨⟩ _ _
          omega
        · have := outside number rfl
          omega
        · rw [zero] at small
          have : (0 : UInt8).toNat = 0 := rfl
          omega
      next outside =>
        refine ⟨?_, fun _ => rfl, by decide⟩
        rintro _ ⟨⟩ _ _
        omega

/-- What a code tells about the programs that were run. -/
structure RunsTell (trace : List Exchange) (code : ExitCode) : Prop where
  /-- A phase that failed gives the code. -/
  failed : ∀ program phase process, .run program phase (.ok process) ∈ trace →
    process.status ≠ some 0 → Carries process.status code
  /-- After a generate that failed, apply has not been tried. -/
  alone : ∀ program process, .run program .generate (.ok process) ∈ trace →
    process.status ≠ some 0 → ∀ program answer, .run program .apply answer ∉ trace
  /-- A program that could not be run is a failure of its own. -/
  unspawned : ∀ program phase cause, .run program phase (.error cause) ∈ trace → code = 70

/-- Both phases have been run and have exited with status 0. -/
def Applied (trace : List Exchange) : Prop :=
  ∃ program generate apply, .run program .generate (.ok generate) ∈ trace ∧
    .run program .apply (.ok apply) ∈ trace ∧ generate.status = some 0 ∧ apply.status = some 0

/-- A reconciliation that stops at a failure has passed generate before, or nothing. -/
theorem RunsTell.of_failure {program : String} {phase : Phase}
    {failure : PhaseOutput → ReconcileError}
    {answer : Except SystemError ProcessResult} {error : ReconcileError} {before : List Exchange}
    (fails : phaseResult program phase failure answer = .error error)
    (carried : ∀ output, (failure output).exitCode? = some output.exitCode)
    (passed : ∀ program phase answer, .run program phase answer ∈ before →
      phase = .generate ∧ ∃ process, answer = .ok process ∧ process.status = some 0) :
    RunsTell (before ++ [.run program phase answer]) (codeOf (.error (.reconcile error))) ∧
      (codeOf (.error (.reconcile error)) = 0 ↔
        Applied (before ++ [.run program phase answer])) := by
  have isLast {program' : String} {phase' : Phase} {answer' : Except SystemError ProcessResult}
      (member : Exchange.run program' phase' answer' ∈ before ++ [.run program phase answer])
      (late : phase' = .apply ∨ ∀ process, answer' = .ok process → process.status ≠ some 0) :
      phase' = phase ∧ answer' = answer := by
    rcases List.mem_append.mp member with early | last
    · obtain ⟨rfl, process, rfl, zero⟩ := passed _ _ _ early
      rcases late with apply | fails
      · cases apply
      · exact (fails process rfl zero).elim
    · cases List.mem_singleton.mp last
      exact ⟨rfl, rfl⟩
  rcases phaseResult_error fails with ⟨cause, rfl, rfl⟩ | ⟨process, rfl, nonzero, rfl⟩
  · refine ⟨⟨fun _ _ process member fails => ?_, fun _ process member fails => ?_,
      fun _ _ _ _ => rfl⟩, iff_of_false (by decide : (70 : ExitCode) ≠ 0) ?_⟩
    · cases (isLast member (Or.inr fun _ same => Except.ok.inj same ▸ fails)).2
    · cases (isLast member (Or.inr fun _ same => Except.ok.inj same ▸ fails)).2
    · rintro ⟨_, _, process, _, member, _⟩
      cases (isLast member (Or.inl rfl)).2
  · have code : codeOf (.error (.reconcile (failure (.ofProcess phase process)))) =
        (PhaseOutput.ofProcess phase process).exitCode := by
      rw [codeOf, ActionError.exitCode?, carried]
      rfl
    have carries := @carries_exitCode (.ofProcess phase process) nonzero
    rw [code]
    refine ⟨⟨fun _ _ other member fails => ?_, fun _ other member fails _ answer apply => ?_,
      fun _ _ cause member => ?_⟩, iff_of_false carries.nonzero ?_⟩
    · cases (isLast member (Or.inr fun _ same => Except.ok.inj same ▸ fails)).2
      exact carries
    · have generated := (isLast member (Or.inr fun _ same => Except.ok.inj same ▸ fails)).1
      cases generated.trans (isLast apply (Or.inl rfl)).1.symm
    · cases (isLast member (Or.inr nofun)).2
    · rintro ⟨_, _, other, _, member, _, zero⟩
      cases (isLast member (Or.inl rfl)).2
      exact (nonzero zero).elim

theorem Reconciles.tells {program : String} {made : List Exchange}
    {ran : Except ReconcileError ReconcileReport} (reconciles : Reconciles program made ran) :
    RunsTell made (codeOf (reconciled ran)) ∧ (codeOf (reconciled ran) = 0 ↔ Applied made) := by
  cases reconciles with
  | stopped generated =>
      exact @RunsTell.of_failure _ _ _ _ _ [] generated (fun _ => rfl) nofun
  | failed generated applied =>
      obtain ⟨process, rfl, zero, rfl⟩ := phaseResult_ok generated
      refine @RunsTell.of_failure _ _ _ _ _ [_] applied (fun _ => rfl) fun _ _ _ member => ?_
      cases List.mem_singleton.mp member
      exact ⟨rfl, process, rfl, zero⟩
  | finished generated applied =>
      obtain ⟨process, rfl, zero, rfl⟩ := phaseResult_ok generated
      obtain ⟨process', rfl, zero', rfl⟩ := phaseResult_ok applied
      have code : (PhaseOutput.ofProcess .apply process').exitCode = 0 := by
        rw [PhaseOutput.exitCode, PhaseOutput.ofProcess, zero']
        rfl
      have passed (program' : String) (phase : Phase) (answer : Except SystemError ProcessResult)
          (member : Exchange.run program' phase answer ∈
            [.run program .generate (.ok process), .run program .apply (.ok process')]) :
          ∃ process, answer = .ok process ∧ process.status = some 0 := by
        simp only [List.mem_cons, List.not_mem_nil, or_false] at member
        rcases member with ⟨rfl, rfl, rfl⟩ | ⟨rfl, rfl, rfl⟩
        · exact ⟨process, rfl, zero⟩
        · exact ⟨process', rfl, zero'⟩
      refine ⟨⟨fun _ _ _ member fails => ?_, fun _ _ member fails => ?_, fun _ _ _ member => ?_⟩,
        iff_of_true code ⟨program, process, process', by simp, by simp, zero, zero'⟩⟩
      · obtain ⟨_, ⟨⟩, passes⟩ := passed _ _ _ member
        exact (fails passes).elim
      · obtain ⟨_, ⟨⟩, passes⟩ := passed _ _ _ member
        exact (fails passes).elim
      · obtain ⟨_, ⟨⟩, _⟩ := passed _ _ _ member

/-- Calls that run nothing tell nothing about programs. -/
theorem mem_runs {before made : List Exchange} (quiet : ∀ exchange ∈ before, exchange.IsQuiet)
    {program : String} {phase : Phase} {answer : Except SystemError ProcessResult} :
    Exchange.run program phase answer ∈ before ++ made ↔ .run program phase answer ∈ made := by
  rw [List.mem_append, or_iff_right fun early => quiet _ early program phase answer rfl]

theorem RunsTell.before {before made : List Exchange} {code : ExitCode}
    (tells : RunsTell made code) (quiet : ∀ exchange ∈ before, exchange.IsQuiet) :
    RunsTell (before ++ made) code := by
  refine ⟨fun program phase process => ?_, fun program process => ?_, fun program phase cause => ?_⟩
  · rw [mem_runs quiet]
    exact tells.failed program phase process
  · simp only [mem_runs quiet]
    exact tells.alone program process
  · rw [mem_runs quiet]
    exact tells.unspawned program phase cause

theorem applied_before {before made : List Exchange}
    (quiet : ∀ exchange ∈ before, exchange.IsQuiet) : Applied (before ++ made) ↔ Applied made := by
  simp only [Applied, mem_runs quiet]

theorem RunsTell.of_quiet {code : ExitCode} (quiet : ∀ exchange ∈ trace, exchange.IsQuiet) :
    RunsTell trace code :=
  ⟨fun _ _ _ member => (quiet _ member _ _ _ rfl).elim,
    fun _ _ member => (quiet _ member _ _ _ rfl).elim,
    fun _ _ _ member => (quiet _ member _ _ _ rfl).elim⟩

theorem not_applied_of_quiet (quiet : ∀ exchange ∈ trace, exchange.IsQuiet) : ¬ Applied trace :=
  fun ⟨_, _, _, member, _⟩ => quiet _ member _ _ _ rfl

namespace App

variable {config : Config} {result : Except ActionError Outcome}

/-! ## The exit code -/

/-- Showing a result calls nothing, and gives its code. -/
theorem conclude_traced {code : ExitCode}
    (traced : Traced reliable fs (conclude result) trace code last) :
    trace = [] ∧ code = codeOf result ∧ last = fs := by
  cases result with
  | error error =>
      cases Traced.of_logged traced
      exact ⟨rfl, rfl, rfl⟩
  | ok outcome =>
      cases outcome with
      | rendered text =>
          cases traced with
          | print traced =>
              cases traced
              exact ⟨rfl, rfl, rfl⟩
      | _ =>
          cases traced
          exact ⟨rfl, rfl, rfl⟩

theorem perform_execute {code : ExitCode}
    (traced : Traced reliable fs (perform config) trace code last) :
    ∃ result, Traced reliable fs (execute config) trace result last ∧ code = codeOf result := by
  obtain ⟨result, between, early, late, rfl, acts, rest⟩ := traced.of_filterLog.of_logged.of_bind
  obtain ⟨rfl, isCode, rfl⟩ := conclude_traced rest
  exact ⟨result, (List.append_nil early).symm ▸ acts, isCode⟩

/-- The code that tells a flag. -/
def flagCode : Option Bool → ExitCode
  | some true => 0
  | some false => 1
  | none => 2

theorem flagCode_inj {flag other : Option Bool} (same : flagCode flag = flagCode other) :
    flag = other := by
  rcases flag with _ | _ | _ <;> rcases other with _ | _ | _ <;> first | rfl | cases same

/-- Why a run has succeeded. -/
inductive Succeeds (config : Config) (fs : FileSystem) (trace : List Exchange) : Prop
  /-- DHCP is on in the document. -/
  | enabled {family : Family} {answer : Except SystemError ByteArray} {document : Document} :
    config.action = .getDhcp family → .read (documentPath config) answer ∈ trace →
    Loads config fs answer (.ok document) → document.entry.dhcp family = some true →
    Succeeds config fs trace
  /-- A dry run does not restart. -/
  | skipped : config.dryRun = true → config.action = .restart → Succeeds config fs trace
  /-- A dry run has come to a text. -/
  | shown {edit : Edit} {answer : Except SystemError ByteArray}
    {loaded : Except LoadError Document} {text : String} : config.dryRun = true →
    config.action = .change edit → .read (documentPath config) answer ∈ trace →
    Loads config fs answer loaded → edit.outcome loaded = .ok (.ok text) →
    Succeeds config fs trace
  | applied : Applied trace → Succeeds config fs trace

/-- What the code of a run tells about its calls and the result of its action. -/
structure Tells (config : Config) (fs : FileSystem) (trace : List Exchange)
    (result : Except ActionError Outcome) (code : ExitCode) : Prop where
  zero : code = 0 ↔ Succeeds config fs trace
  /-- The code of a document that was loaded is that of its flag. -/
  flag : ∀ family answer document, config.action = .getDhcp family →
    .read (documentPath config) answer ∈ trace → Loads config fs answer (.ok document) →
    code = flagCode (document.entry.dhcp family)
  runs : RunsTell trace code
  /-- All that fails besides the phases is a failure of the program itself. -/
  failed : ∀ error, result = .error error → (∀ cause, error ≠ .reconcile cause) → code = 70

theorem quiet_read (path : String) (answer : Except SystemError ByteArray) :
    ∀ exchange ∈ [Exchange.read path answer], exchange.IsQuiet := by
  rintro _ member program phase answer rfl
  cases List.mem_singleton.mp member

/-- A run that changes something has succeeded if both phases have. -/
theorem succeeds_iff_applied (notDry : config.dryRun = false)
    (notAsked : ∀ family, config.action ≠ .getDhcp family) :
    Succeeds config fs trace ↔ Applied trace := by
  refine ⟨fun succeeds => ?_, .applied⟩
  cases succeeds with
  | enabled asked => exact (notAsked _ asked).elim
  | skipped dry => cases notDry.symm.trans dry
  | shown dry => cases notDry.symm.trans dry
  | applied applied => exact applied

section Unasked

variable (unasked : ∀ family, config.action ≠ .getDhcp family)

include unasked

theorem Tells.of_unasked (zero : codeOf result = 0 ↔ Succeeds config fs trace)
    (runs : RunsTell trace (codeOf result)) : Tells config fs trace result (codeOf result) :=
  ⟨zero, fun family _ _ asked => (unasked family asked).elim, runs,
    fun _ isError other => isError ▸ codeOf_failed other⟩

theorem Tells.of_applying (notDry : config.dryRun = false)
    (zero : codeOf result = 0 ↔ Applied trace) (runs : RunsTell trace (codeOf result)) :
    Tells config fs trace result (codeOf result) :=
  .of_unasked unasked (zero.trans (succeeds_iff_applied notDry unasked).symm) runs

/-- A change that fails before any phase has not been applied. -/
theorem Tells.of_failure (notDry : config.dryRun = false)
    (quiet : ∀ exchange ∈ trace, exchange.IsQuiet) (code : codeOf result ≠ 0) :
    Tells config fs trace result (codeOf result) :=
  .of_applying unasked notDry (iff_of_false code (not_applied_of_quiet quiet)) (.of_quiet quiet)

end Unasked

/-- Of a run that makes one read and shows something, this read decides. -/
theorem Loads.unique {answer other : Except SystemError ByteArray}
    {loaded loaded' : Except LoadError Document} (loads : Loads config fs answer loaded)
    (member : Exchange.read (documentPath config) other ∈
      [.read (documentPath config) answer])
    (again : Loads config fs other loaded') : loaded' = loaded := by
  cases List.mem_singleton.mp member
  exact again.found.symm.trans loads.found

theorem exitCode_state (document : Document) (family : Family) :
    (document.dhcpState family).exitCode = flagCode (document.entry.dhcp family) := by
  unfold Document.dhcpState
  cases document.entry.dhcp family with
  | none => rfl
  | some flag => cases flag <;> rfl

/-- What a dry run shows is a success just if it is a text. -/
theorem codeOf_shown (edit : Edit) (loaded : Except LoadError Document) :
    codeOf (Engine.shown (edit.outcome loaded)) = 0 ↔
      ∃ text, edit.outcome loaded = .ok (.ok text) := by
  cases come : edit.outcome loaded with
  | error error =>
      have other : ∀ cause, error ≠ .reconcile cause := by
        rcases Edit.outcome_error come with ⟨cause, rfl⟩ | ⟨cause, rfl⟩
        · exact nofun
        · exact nofun
      have code : codeOf (Engine.shown (.error error)) = 70 := codeOf_failed other
      rw [code]
      exact iff_of_false (by decide) nofun
  | ok rendered =>
      cases rendered with
      | error cause => exact iff_of_false (by decide : (70 : ExitCode) ≠ 0) nofun
      | ok text => exact iff_of_true rfl ⟨text, rfl⟩

/-- The code of a course tells what has happened in it. -/
theorem Course.tells {action : Action} (course : Course config fs action trace result)
    (asks : config.action = action) : Tells config fs trace result (codeOf result) := by
  have unasked (asksOther : ∀ family, action ≠ .getDhcp family) (family : Family)
      (asked : config.action = .getDhcp family) : False :=
    asksOther family (asks.symm.trans asked)
  cases course with
  | @unanswered family answer error loads =>
      refine ⟨iff_of_false (by decide : (70 : ExitCode) ≠ 0) fun succeeds => ?_,
        fun _ _ document _ member again => ?_, .of_quiet (quiet_read _ _), fun _ _ _ => rfl⟩
      · cases succeeds with
        | enabled _ member again => cases loads.unique member again
        | skipped _ asked => cases asks.symm.trans asked
        | shown _ asked => cases asks.symm.trans asked
        | applied applied => exact not_applied_of_quiet (quiet_read _ _) applied
      · cases loads.unique member again
  | @answered family answer document loads =>
      have code : codeOf (.ok (.dhcp (document.dhcpState family))) = _ :=
        exitCode_state document family
      rw [code]
      refine ⟨⟨fun zero => ?_, fun succeeds => ?_⟩, fun _ _ _ asked member again => ?_,
        .of_quiet (quiet_read _ _), nofun⟩
      · exact .enabled asks List.mem_cons_self loads (flagCode_inj zero)
      · cases succeeds with
        | enabled asked member again on =>
            cases asks.symm.trans asked
            cases loads.unique member again
            rw [on]
            rfl
        | skipped _ asked => cases asks.symm.trans asked
        | shown _ asked => cases asks.symm.trans asked
        | applied applied => exact (not_applied_of_quiet (quiet_read _ _) applied).elim
      · cases asks.symm.trans asked
        cases loads.unique member again
        rfl
  | skipped dry =>
      exact .of_unasked (unasked nofun) (iff_of_true rfl (.skipped dry asks)) (.of_quiet nofun)
  | restarted notDry reconciles =>
      obtain ⟨runs, zero⟩ := reconciles.tells
      exact .of_applying (unasked nofun) notDry zero runs
  | @shown edit answer loaded dry loads =>
      refine .of_unasked (unasked nofun) ((codeOf_shown edit loaded).trans
        ⟨?_, fun succeeds => ?_⟩) (.of_quiet (quiet_read _ _))
      · rintro ⟨text, comes⟩
        exact .shown dry asks List.mem_cons_self loads comes
      · cases succeeds with
        | enabled asked => exact (unasked nofun _ asked).elim
        | skipped _ asked => cases asks.symm.trans asked
        | @shown _ _ _ text _ asked member again comes =>
            cases asks.symm.trans asked
            cases loads.unique member again
            exact ⟨text, comes⟩
        | applied applied => exact (not_applied_of_quiet (quiet_read _ _) applied).elim
  | @unchanged edit answer loaded error notDry loads fails =>
      have other : ∀ cause, error ≠ .reconcile cause := by
        cases loaded with
        | error cause =>
            cases fails
            exact nofun
        | ok document =>
            obtain ⟨cause, _, rfl⟩ := mapError_eq_error fails
            exact nofun
      have code : codeOf (.error error) ≠ 0 := by
        rw [codeOf_failed other]
        decide
      exact .of_failure (unasked nofun) notDry (quiet_read _ _) code
  | @unsaved edit answer loaded saving error notDry loads quiet =>
      have whole := List.forall_mem_append.mpr ⟨quiet_read (documentPath config) answer, quiet⟩
      exact .of_failure (unasked nofun) notDry whole (by decide : (70 : ExitCode) ≠ 0)
  | @committed edit answer loaded saving made ran notDry loads quiet reconciles =>
      have whole := List.forall_mem_append.mpr ⟨quiet_read (documentPath config) answer, quiet⟩
      obtain ⟨runs, zero⟩ := reconciles.tells
      exact .of_applying (unasked nofun) notDry (zero.trans (applied_before whole).symm)
        (runs.before whole)

/-- For every run of an action, whichever of its calls fail and whatever netplan answers, the exit
code is 0 just if the run has succeeded: DHCP is on in the document that was asked for, or a dry run
has come to a text or had only to restart, or both phases have exited with status 0. A document that
was loaded to ask it gives 0, 1 or 2 for its flag, a phase that failed gives its own status where a
code can be that, and 1 otherwise, and all other failures give 70; after a generate that failed,
apply has not been tried. What a run does in a world is one of these runs. -/
theorem exit_code_tells (config : Config) :
    (∀ reliable fs trace code last, Traced reliable fs (perform config) trace code last →
      ∃ result, Traced reliable fs (execute config) trace result last ∧
        Tells config fs trace result code) ∧
    ∀ world : World, ∃ trace,
      Traced true world.files (perform config) trace (world.perform (perform config)).1
          (world.perform (perform config)).2.files ∧
        (world.perform (perform config)).2.calls =
          world.calls ++ trace.filterMap Exchange.ran? ∧ world.Hosts trace := by
  refine ⟨fun reliable fs trace code last traced => ?_, fun world => world.perform_traced _⟩
  obtain ⟨result, acts, rfl⟩ := perform_execute traced
  exact ⟨result, acts, (execute_course acts).tells rfl⟩

/-- A computer on which every phase exits with a status that no exit code can carry. -/
def overflowing : World where
  files := FileSystem.empty
  host := fun _ _ _ => .ok ⟨some 256, .empty, .empty⟩

/-- The run that puts the documents into effect again. -/
def restarting : Config where
  interface := "eth0"
  action := .restart
  configDir := "etc"
  filePrefix := "90-"
  netplan := "netplan"
  dryRun := false
  verbose := false

/-- A status is not cut down to a code that would tell of success. -/
theorem exit_code_tells_overflow :
    (overflowing.perform (perform restarting)).1 = 1 ∧
      (overflowing.perform (perform restarting)).2.calls = [.generate] := by
  obtain ⟨every, inWorlds⟩ := exit_code_tells restarting
  obtain ⟨trace, traced, calls, hosts⟩ := inWorlds overflowing
  obtain ⟨result, _, tells⟩ := every _ _ _ _ _ traced
  have ran : (overflowing.perform (perform restarting)).2.calls = [.generate] := by decide +kernel
  refine ⟨?_, ran⟩
  have shown : Phase.generate ∈ trace.filterMap Exchange.ran? := by
    rw [← List.nil_append (trace.filterMap Exchange.ran?)]
    exact (calls.symm.trans ran).symm ▸ List.mem_cons_self
  obtain ⟨exchange, member, isRun⟩ := List.mem_filterMap.mp shown
  cases exchange with
  | run program phase answer =>
      obtain ⟨_, rfl⟩ := hosts _ _ _ member
      refine (tells.runs.failed _ _ _ member (by decide)).other ?_
      rintro _ ⟨⟩
      exact Or.inr (by decide)
  | _ => cases isRun

/-! ## Asking for DHCP -/

/-- The calls of a run that asks for DHCP, and its code. First the run is configured. -/
inductive Asked (reliable : Bool) (arguments : Arguments) (fs : FileSystem) :
    List Exchange → ExitCode → Prop
  | misconfigured {trace : List Exchange} {error : ConfigError} :
    Traced reliable fs (loadConfig arguments) trace (.error error) fs →
    Asked reliable arguments fs trace 64
  | answered {early : List Exchange} {config : Config} {family : Family}
    {answer : Except SystemError ByteArray} {document : Document} :
    Traced reliable fs (loadConfig arguments) early (.ok config) fs →
    config.action = .getDhcp family → Loads config fs answer (.ok document) →
    Asked reliable arguments fs (early ++ [.read (documentPath config) answer])
      (flagCode (document.entry.dhcp family))
  | unanswered {early : List Exchange} {config : Config} {family : Family}
    {answer : Except SystemError ByteArray} {error : LoadError} :
    Traced reliable fs (loadConfig arguments) early (.ok config) fs →
    config.action = .getDhcp family → Loads config fs answer (.error error) →
    Asked reliable arguments fs (early ++ [.read (documentPath config) answer]) 70

/-- The settings have no say in what is asked. -/
theorem resolve_asks {arguments : Arguments} {settings : Settings} {config : Config}
    (asks : arguments.action = some .getDhcp)
    (resolves : Config.resolve arguments settings = .ok config) :
    ∃ family, config.action = .getDhcp family := by
  obtain ⟨kind, asksKind, _, acts, _⟩ := Config.parts_of_resolve resolves
  cases asks.symm.trans asksKind
  simp only [Config.actionOf] at acts
  split at acts
  next family selected => exact ⟨family, (Except.ok.inj acts).symm⟩
  next => cases acts

theorem invoke_asked {arguments : Arguments} {ending : Ending}
    (asks : arguments.action = some .getDhcp)
    (traced : Traced reliable fs (invoke (.run arguments)) trace ending last) :
    Asked reliable arguments fs trace ending.code := by
  obtain ⟨configured, between, early, late, rfl, first, rest⟩ := traced.of_bind
  obtain rfl := first.fixed (loadConfig_gives arguments) rfl
  cases configured with
  | error error =>
      cases rest
      exact (List.append_nil early).symm ▸ .misconfigured first
  | ok config =>
      obtain ⟨settings, resolves⟩ := (first.gives (loadConfig_gives arguments)).1 config rfl
      obtain ⟨family, asksFamily⟩ := resolve_asks asks resolves
      obtain ⟨code, between, acted, late, rfl, performs, rest⟩ := rest.of_bind
      cases rest
      obtain ⟨result, acts, rfl⟩ := perform_execute performs
      have course := execute_course acts
      rw [asksFamily] at course
      rw [List.append_nil]
      cases course with
      | unanswered loads => exact .unanswered first asksFamily loads
      | @answered _ answer document loads =>
          have answered := @Asked.answered reliable _ _ _ _ _ answer document first asksFamily loads
          rw [← exitCode_state] at answered
          exact answered

theorem invoke_init {output : String} {ending : Ending}
    (traced : Traced reliable fs (invoke (.init output)) trace ending last) :
    ∃ answer, trace = [.write output Settings.template.toUTF8 answer] ∧
      ending.code = if answer.isOk then 0 else 64 := by
  cases traced with
  | @write _ _ _ _ answer _ _ _ _ _ rest =>
      refine ⟨answer, ?_⟩
      cases answer with
      | error cause =>
          cases rest
          exact ⟨rfl, rfl⟩
      | ok =>
          cases rest with
          | print rest =>
              cases rest
              exact ⟨rfl, rfl⟩

/-- What the exit code of a command line tells to somebody who asks for DHCP. A command line that
cannot be read is refused without a call, with the code that also tells that the flag is not given.
One that asks for a settings file gives 0 where it was written and 64 where not. For all others, a run
that cannot be configured gives 64, one that has loaded the document gives 0, 1 or 2 for its flag, and
every other gives 70, whichever calls fail; so these three codes are given only for a document that
was loaded, with that flag. -/
theorem get_dhcp_tells (words : List String) :
    (∀ error, CommandLine.parse words = .error error → error ≠ .helpRequested →
      error ≠ .versionRequested →
      run words = .done (.refused error) ∧ (Ending.refused error).code = flagCode none) ∧
    ∀ reliable fs trace ending last, Traced reliable fs (run words) trace ending last →
      (∀ output, CommandLine.parse words = .ok (.init output) →
        ∃ answer, trace = [.write output Settings.template.toUTF8 answer] ∧
          ending.code = if answer.isOk then 0 else 64) ∧
      ∀ arguments, CommandLine.parse words = .ok (.run arguments) →
        arguments.action = some .getDhcp →
        Asked reliable arguments fs trace ending.code ∧
        ∀ flag, ending.code = flagCode flag → ∃ early config family answer document,
          Traced reliable fs (loadConfig arguments) early (.ok config) fs ∧
          config.action = .getDhcp family ∧
          trace = early ++ [.read (documentPath config) answer] ∧
          Loads config fs answer (.ok document) ∧ document.entry.dhcp family = flag := by
  refine ⟨fun error refused notHelp notVersion => ?_, fun reliable fs trace ending last traced =>
    ⟨fun output parsed => ?_, fun arguments parsed asks => ?_⟩⟩
  · refine ⟨by rw [run, refused]; rfl, ?_⟩
    cases error with
    | helpRequested => exact (notHelp rfl).elim
    | versionRequested => exact (notVersion rfl).elim
    | _ => rfl
  · rw [run, parsed] at traced
    exact invoke_init traced
  · rw [run, parsed] at traced
    have asked := invoke_asked asks traced
    refine ⟨asked, fun flag tells => ?_⟩
    generalize ending.code = code at asked tells
    cases asked with
    | misconfigured => rcases flag with _ | _ | _ <;> cases tells
    | @answered early config family answer document configured acts loads =>
        exact ⟨early, config, family, answer, document, configured, acts, rfl, loads,
          flagCode_inj tells⟩
    | unanswered => rcases flag with _ | _ | _ <;> cases tells

/-- A command line that asks a computer for DHCP. -/
def asking : List String :=
  ["-a", "get_dhcp", "-d", "eth0", "-p", "4", "--config-dir", "etc", "--prefix=90-"]

/-- Where the document does not give the flag, the code 2 tells that. -/
theorem get_dhcp_tells_unset :
    (furnished.perform (run asking)).1.code = 2 ∧
      ∃ config family answer document, config.action = .getDhcp family ∧
        Loads config furnished.files answer (.ok document) ∧
        document.entry.dhcp family = none := by
  obtain ⟨trace, traced, _⟩ := furnished.perform_traced (run asking)
  have parsed : CommandLine.parse asking = .ok (.run {
      action := some .getDhcp
      device := some "eth0"
      proto := some "4"
      configDir := some "etc"
      filePrefix := some "90-" }) := by decide +kernel
  have code : (furnished.perform (run asking)).1.code = 2 := by decide +kernel
  obtain ⟨_, tells⟩ := ((get_dhcp_tells asking).2 _ _ _ _ _ traced).2 _ parsed rfl
  obtain ⟨early, config, family, answer, document, _, acts, _, loads, unset⟩ := tells none code
  exact ⟨code, config, family, answer, document, acts, loads, unset⟩

/-- A command line that asks for DHCP and lacks a value at its end. -/
def askingAmiss : List String :=
  ["-a", "get_dhcp", "-d", "eth0", "--config-dir", "etc", "-p"]

/-- Not every faulty invocation ends with the code for one: a command line that cannot be read ends
with the code that tells that a flag is not given. -/
theorem refused_as_unset :
    ¬ ∀ (words : List String) (error : UsageError) (world : World),
      ["-a", "get_dhcp"] <:+: words → CommandLine.parse words = .error error →
      error ≠ .helpRequested → error ≠ .versionRequested →
      (world.perform (run words)).1.code = Ending.faultyInvocation := by
  intro always
  have refused : CommandLine.parse askingAmiss = .error .invalidValue := by decide +kernel
  have code := always askingAmiss .invalidValue furnished
    ⟨[], ["-d", "eth0", "--config-dir", "etc", "-p"], rfl⟩ refused nofun nofun
  rw [run, refused] at code
  exact absurd code (by decide)

end App

end NetplanEditor
