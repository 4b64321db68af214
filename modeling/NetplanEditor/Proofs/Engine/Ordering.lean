import NetplanEditor.Engine.Rehearsal
import NetplanEditor.Proofs.Document.Carried

/-!
# The order of the calls of an engine

An engine loads, saves, generates and applies, in this order, and stops at the first failure. `Makes`
follows one computation on a stage: the calls it adds, its value, and the text it leaves. `Course`
lists every way an action can go, one constructor for each place where it can end, and
`perform_course` shows that there is no other. What an action does to the stored text, and which call
is made after which, are then read off the courses.
-/

namespace NetplanEditor

/-! ## What the calls answer -/

/-- The calls that an action makes if nothing fails, in their order. -/
def Action.plan (interface : String) : Action → List Call
  | .getDhcp _ => [.load interface]
  | .restart => [.run .generate, .run .apply]
  | .change _ => [.load interface, .save interface, .run .generate, .run .apply]

namespace Script

/-- What loading gives when this text is stored. -/
def loaded (script : Script) (interface : String) (stored : Option String) :
    Except LoadError Document :=
  match script.loadFailure, stored with
  | some error, _ => .error error
  | none, none => .ok (.skeleton interface)
  | none, some text =>
    (Document.parse interface text).value.mapError (.invalid (Rehearsal.pathFor interface))

/-- The changed document, where both loading and the change succeed. -/
def changed (script : Script) (interface : String) (edit : Edit) (stored : Option String) :
    Except ActionError Document :=
  match script.loaded interface stored with
  | .error error => .error (.load error)
  | .ok document => (edit.apply document).value.mapError .edit

/-- The text that a save of the document stores, where it succeeds. -/
def saved (script : Script) (document : Document) : Except SaveError String :=
  match script.saveFailure with
  | some error => .error error
  | none => document.render.mapError .unwritable

/-- How a phase ends that has to succeed. -/
def completed (script : Script) (phase : Phase) (failure : PhaseOutput → ReconcileError) :
    Except ReconcileError PhaseOutput :=
  match script.phase phase with
  | .error error => .error error
  | .ok output => if output.success then .ok output else .error (failure output)

/-- Loading, the change and a save all succeed, and this is the text of the changed document. -/
def Commits (script : Script) (interface : String) (edit : Edit) (stored : Option String)
    (text : String) : Prop :=
  ∃ document, script.changed interface edit stored = .ok document ∧
    script.saveFailure = none ∧ document.render = .ok text

theorem saved_eq_ok {script : Script} {document : Document} {text : String} :
    script.saved document = .ok text ↔ script.saveFailure = none ∧ document.render = .ok text := by
  unfold saved
  cases script.saveFailure with
  | some error => simp
  | none =>
      rw [eq_self_iff_true, true_and]
      constructor
      · intro ok
        exact mapError_eq_ok ok
      · intro renders
        rw [renders]
        rfl

theorem completed_eq_ok {script : Script} {phase : Phase}
    {failure : PhaseOutput → ReconcileError} {output : PhaseOutput} :
    script.completed phase failure = .ok output ↔
      script.phase phase = .ok output ∧ output.status = some 0 := by
  unfold completed
  cases script.phase phase with
  | error error => simp
  | ok other =>
      dsimp only
      split
      next succeeded =>
        have zero : other.status = some 0 := eq_of_beq succeeded
        constructor
        · intro same
          cases same
          exact ⟨rfl, zero⟩
        · intro same
          exact same.1
      next failed =>
        constructor
        · intro same
          cases same
        · rintro ⟨same, zero⟩
          cases same
          exact (failed (beq_iff_eq.mpr zero)).elim

theorem changed_ne_reconcile {script : Script} {interface : String} {edit : Edit}
    {stored : Option String} {cause : ReconcileError} :
    script.changed interface edit stored ≠ .error (.reconcile cause) := by
  intro same
  unfold Script.changed at same
  split at same
  · cases same
  next document _ =>
    cases isApplied : (edit.apply document).value with
    | error cause =>
        rw [isApplied] at same
        cases same
    | ok edited =>
        rw [isApplied] at same
        cases same

/-- A document that is loaded has come about without edits. -/
theorem loaded_reachable {script : Script} {interface : String} {stored : Option String}
    {document : Document} (loaded : script.loaded interface stored = .ok document) :
    Document.Reachable interface document := by
  unfold Script.loaded at loaded
  split at loaded
  · cases loaded
  · cases loaded
    exact .skeleton
  · exact .parsed (mapError_eq_ok loaded)

theorem changed_reachable {script : Script} {interface : String} {edit : Edit}
    {stored : Option String} {document : Document}
    (changed : script.changed interface edit stored = .ok document) :
    Document.Reachable interface document := by
  unfold Script.changed at changed
  split at changed
  · cases changed
  next before isLoaded => exact .edited (loaded_reachable isLoaded) (mapError_eq_ok changed)

/-- The changed document is for the interface asked for. -/
theorem changed_interface {script : Script} {interface : String} {edit : Edit}
    {stored : Option String} {document : Document}
    (changed : script.changed interface edit stored = .ok document) :
    document.interface = interface :=
  (changed_reachable changed).sound.1

end Script

namespace Rehearsal

variable {script : Script} {dryRun : Bool} {interface : String} {before : Stage}
  {stored left : Option String} {made more : List Call} {action : Action}

/-! ## Computations on a stage -/

/-- From the stage `before` the computation makes the calls `made`, ends with the value and leaves
the text `left`. -/
structure Makes {α : Type} (computation : Rehearsal α) (before : Stage) (made : List Call)
    (value : α) (left : Option String) : Prop where
  value : (computation.run before).1 = value
  calls : (computation.run before).2.calls = before.calls ++ made
  text : (computation.run before).2.text = left

/-- Two computations one after the other make the calls of both. -/
theorem Makes.bind {α β : Type} {first : Rehearsal α} {next : α → Rehearsal β} {value : α}
    {final : β} {last : Option String} (head : Makes first before made value left)
    (tail : ∀ stage : Stage, stage.text = left → Makes (next value) stage more final last) :
    Makes (first >>= next) before (made ++ more) final last := by
  have rest := tail _ head.text
  have run : (first >>= next).run before =
      (next (first.run before).1).run (first.run before).2 := rfl
  rw [head.value] at run
  constructor
  · rw [run]
    exact rest.value
  · rw [run, rest.calls, head.calls, List.append_assoc]
  · rw [run]
    exact rest.text

/-- A computation that makes no calls leaves them to the one before it. -/
theorem Makes.silent {α β : Type} {first : Rehearsal α} {next : α → Rehearsal β} {value : α}
    {final : β} {last : Option String} (head : Makes first before made value left)
    (tail : ∀ stage : Stage, stage.text = left → Makes (next value) stage [] final last) :
    Makes (first >>= next) before made final last := by
  have both := head.bind tail
  rwa [List.append_nil] at both

theorem Makes.pure {α : Type} (value : α) (kept : before.text = left) :
    Makes (Pure.pure value) before [] value left :=
  ⟨rfl, (List.append_nil _).symm, kept⟩

theorem Makes.logAll (events : List LogEvent) (kept : before.text = left) :
    Makes (MonadLog.logAll events) before [] () left :=
  ⟨rfl, (List.append_nil _).symm, kept⟩

theorem Makes.record (call : Call) (kept : before.text = left) :
    Makes (Rehearsal.record call) before [call] () left :=
  ⟨rfl, rfl, kept⟩

/-- Sharing a log leaves the calls to what comes after. -/
theorem Makes.share {α β : Type} {logged : Logged α} {next : α → Rehearsal β} {final : β}
    (kept : before.text = stored)
    (tail : ∀ stage : Stage, stage.text = stored →
      Makes (next logged.value) stage more final left) :
    Makes (logged.share >>= next) before more final left := by
  have told : Makes (logged.share : Rehearsal α) before [] logged.value stored :=
    (Makes.logAll logged.log kept).silent fun _ same => Makes.pure _ same
  exact told.bind tail

/-! ## The store and the phases -/

theorem makes_load (script : Script) (interface : String) (kept : before.text = stored) :
    Makes (load script interface) before [.load interface] (script.loaded interface stored)
      stored := by
  refine (Makes.record (.load interface) kept).silent fun stage same => ?_
  unfold Script.loaded
  cases script.loadFailure with
  | some error => exact Makes.pure _ same
  | none =>
      have asked : Makes (get : Rehearsal Stage) stage [] stage stored :=
        ⟨rfl, (List.append_nil _).symm, same⟩
      refine asked.silent fun stage' same' => ?_
      rw [same]
      cases stored with
      | none => exact Makes.pure _ same'
      | some text => exact Makes.share same' fun _ => Makes.pure _

theorem makes_save (script : Script) (document : Document) (kept : before.text = stored) :
    Makes (save script document) before [.save document.interface]
      ((script.saved document).map fun _ => ())
      (match script.saved document with
        | .ok text => some text
        | .error _ => stored) := by
  refine (Makes.record (.save document.interface) kept).silent fun stage same => ?_
  unfold Script.saved
  cases script.saveFailure with
  | some error => exact Makes.pure _ same
  | none =>
      cases document.render with
      | error error => exact Makes.pure _ same
      | ok text => exact ⟨rfl, (List.append_nil _).symm, rfl⟩

theorem makes_complete (script : Script) (dryRun : Bool) (phase : Phase)
    (failure : PhaseOutput → ReconcileError)
    (kept : before.text = stored) :
    Makes ((engine script dryRun).reconciler.complete phase failure) before [.run phase]
      (script.completed phase failure) stored := by
  have ran : Makes (runPhase script phase) before [.run phase] (script.phase phase) stored :=
    (Makes.record (.run phase) kept).silent fun _ same => Makes.pure _ same
  refine ran.silent fun stage same => ?_
  unfold Script.completed
  cases script.phase phase with
  | error error => exact Makes.pure _ same
  | ok output => exact (Makes.logAll output.logEvents same).silent fun _ => Makes.pure _

/-! ## The ways an action can go -/

/-- The calls of a reconciliation, and how it ends. -/
inductive Reconciles (script : Script) :
    List Call → Except ReconcileError ReconcileReport → Prop
  | stopped {error : ReconcileError} :
    script.completed .generate .generateFailed = .error error →
    Reconciles script [.run .generate] (.error error)
  | failed {generate : PhaseOutput} {error : ReconcileError} :
    script.completed .generate .generateFailed = .ok generate →
    script.completed .apply (.applyFailed generate) = .error error →
    Reconciles script [.run .generate, .run .apply] (.error error)
  | finished {generate apply : PhaseOutput} :
    script.completed .generate .generateFailed = .ok generate →
    script.completed .apply (.applyFailed generate) = .ok apply →
    Reconciles script [.run .generate, .run .apply] (.ok ⟨generate, apply⟩)

/-- What an action has to show for a reconciliation. -/
def reconciled (result : Except ReconcileError ReconcileReport) : Except ActionError Outcome :=
  match result with
  | .error error => .error (.reconcile error)
  | .ok report => .ok (.reconciled report)

/-- The calls of an action on an interface with the text `stored`, how it ends, and the text that it
leaves: one way for each place where an action can end. -/
inductive Course (script : Script) (dryRun : Bool) (interface : String) (stored : Option String) :
    Action → List Call → Except ActionError Outcome → Option String → Prop
  | unanswered {family : Family} {error : LoadError} :
    script.loaded interface stored = .error error →
    Course script dryRun interface stored (.getDhcp family) [.load interface]
      (.error (.load error)) stored
  | answered {family : Family} {document : Document} :
    script.loaded interface stored = .ok document →
    Course script dryRun interface stored (.getDhcp family) [.load interface]
      (.ok (.dhcp (document.dhcpState family))) stored
  | skipped : dryRun = true →
    Course script dryRun interface stored .restart [] (.ok .skipped) stored
  | restarted {made : List Call} {result : Except ReconcileError ReconcileReport} :
    dryRun = false → Reconciles script made result →
    Course script dryRun interface stored .restart made (reconciled result) stored
  | unchanged {edit : Edit} {error : ActionError} :
    script.changed interface edit stored = .error error →
    Course script dryRun interface stored (.change edit) [.load interface] (.error error) stored
  | unrendered {edit : Edit} {document : Document} {error : DocumentError} : dryRun = true →
    script.changed interface edit stored = .ok document → document.render = .error error →
    Course script dryRun interface stored (.change edit) [.load interface]
      (.error (.render error)) stored
  | rendered {edit : Edit} {document : Document} {text : String} : dryRun = true →
    script.changed interface edit stored = .ok document → document.render = .ok text →
    Course script dryRun interface stored (.change edit) [.load interface]
      (.ok (.rendered text)) stored
  | unsaved {edit : Edit} {document : Document} {error : SaveError} : dryRun = false →
    script.changed interface edit stored = .ok document →
    script.saved document = .error error →
    Course script dryRun interface stored (.change edit) [.load interface, .save interface]
      (.error (.save error)) stored
  | committed {edit : Edit} {document : Document} {text : String} {made : List Call}
    {result : Except ReconcileError ReconcileReport} : dryRun = false →
    script.changed interface edit stored = .ok document → script.saved document = .ok text →
    Reconciles script made result →
    Course script dryRun interface stored (.change edit)
      (.load interface :: .save interface :: made) (reconciled result) (some text)

theorem makes_reconcile (script : Script) (dryRun : Bool) :
    ∃ made result, Reconciles script made result ∧
      ∀ (stage : Stage) (stored : Option String), stage.text = stored →
        Makes (engine script dryRun).reconcile stage made (reconciled result) stored := by
  suffices both : ∃ made result, Reconciles script made result ∧
      ∀ (stage : Stage) (stored : Option String), stage.text = stored →
        Makes (engine script dryRun).reconciler.reconcile stage made result stored by
    obtain ⟨made, result, reconciles, makes⟩ := both
    refine ⟨made, result, reconciles, fun stage stored same => ?_⟩
    refine (makes stage stored same).silent fun stage same => ?_
    cases result with
    | error error => exact Makes.pure _ same
    | ok report => exact Makes.pure _ same
  cases isGenerated : script.completed .generate .generateFailed with
  | error error =>
      refine ⟨_, _, .stopped isGenerated, fun stage stored same => ?_⟩
      have generates := makes_complete script dryRun .generate .generateFailed same
      rw [isGenerated] at generates
      exact generates.silent fun _ => Makes.pure _
  | ok generate =>
      cases isApplied : script.completed .apply (.applyFailed generate) with
      | error error =>
          refine ⟨_, _, .failed isGenerated isApplied, fun stage stored same => ?_⟩
          have generates := makes_complete script dryRun .generate .generateFailed same
          rw [isGenerated] at generates
          refine generates.bind fun stage same => ?_
          have applies := makes_complete script dryRun .apply (.applyFailed generate) same
          rw [isApplied] at applies
          exact applies.silent fun _ => Makes.pure _
      | ok apply =>
          refine ⟨_, _, .finished isGenerated isApplied, fun stage stored same => ?_⟩
          have generates := makes_complete script dryRun .generate .generateFailed same
          rw [isGenerated] at generates
          refine generates.bind fun stage same => ?_
          have applies := makes_complete script dryRun .apply (.applyFailed generate) same
          rw [isApplied] at applies
          exact applies.silent fun _ same => (Makes.logAll _ same).silent fun _ => Makes.pure _

theorem answer_course (script : Script) (dryRun : Bool) (interface : String) (family : Family)
    (stored : Option String) :
    ∃ made result left, Course script dryRun interface stored (.getDhcp family) made result left ∧
      ∀ stage : Stage, stage.text = stored →
        Makes ((engine script dryRun).answer interface family) stage made result left := by
  cases isLoaded : script.loaded interface stored with
  | error error =>
      refine ⟨_, _, _, .unanswered isLoaded, fun stage same => ?_⟩
      have loads := makes_load script interface same
      rw [isLoaded] at loads
      exact loads.silent fun _ => Makes.pure _
  | ok document =>
      refine ⟨_, _, _, .answered isLoaded, fun stage same => ?_⟩
      have loads := makes_load script interface same
      rw [isLoaded] at loads
      exact loads.silent fun _ same => (Makes.logAll _ same).silent fun _ => Makes.pure _

theorem restart_course (script : Script) (dryRun : Bool) (interface : String)
    (stored : Option String) :
    ∃ made result left, Course script dryRun interface stored .restart made result left ∧
      ∀ stage : Stage, stage.text = stored →
        Makes (engine script dryRun).restart stage made result left := by
  cases dryRun with
  | true =>
      refine ⟨_, _, _, .skipped rfl, fun stage same => ?_⟩
      exact (Makes.logAll _ same).silent fun _ => Makes.pure _
  | false =>
      obtain ⟨made, result, reconciles, makes⟩ := makes_reconcile script false
      exact ⟨_, _, _, .restarted rfl reconciles, fun stage same => makes stage stored same⟩

/-- A change whose document could be loaded and changed goes on as `next` does. -/
theorem makes_change {edit : Edit} {document : Document} {result : Except ActionError Outcome}
    (changes : script.changed interface edit stored = .ok document)
    (next : ∀ stage : Stage, stage.text = stored →
      Makes (if dryRun then Engine.preview document else (engine script dryRun).commit document) stage
        made result left)
    (kept : before.text = stored) :
    Makes ((engine script dryRun).change interface edit) before (.load interface :: made) result
      left := by
  have loads := makes_load script interface kept
  unfold Script.changed at changes
  split at changes
  · cases changes
  next before isLoaded =>
    rw [isLoaded] at loads
    refine loads.bind fun stage same => Makes.share same fun stage same => ?_
    rw [mapError_eq_ok changes]
    exact next stage same

/-- A change whose document could not be loaded or changed is over after the load. -/
theorem makes_change_failed {edit : Edit} {error : ActionError}
    (fails : script.changed interface edit stored = .error error) (kept : before.text = stored) :
    Makes ((engine script dryRun).change interface edit) before [.load interface] (.error error)
      stored := by
  have loads := makes_load script interface kept
  unfold Script.changed at fails
  split at fails
  next cause isLoaded =>
    cases fails
    rw [isLoaded] at loads
    exact loads.silent fun _ => Makes.pure _
  next document isLoaded =>
    rw [isLoaded] at loads
    refine loads.silent fun stage same => Makes.share same fun stage same => ?_
    cases isApplied : (edit.apply document).value with
    | error cause =>
        rw [isApplied] at fails
        cases fails
        exact Makes.pure _ same
    | ok document =>
        rw [isApplied] at fails
        cases fails

theorem change_course (script : Script) (dryRun : Bool) (interface : String) (edit : Edit)
    (stored : Option String) :
    ∃ made result left, Course script dryRun interface stored (.change edit) made result left ∧
      ∀ stage : Stage, stage.text = stored →
        Makes ((engine script dryRun).change interface edit) stage made result left := by
  cases isChanged : script.changed interface edit stored with
  | error error => exact ⟨_, _, _, .unchanged isChanged, fun _ => makes_change_failed isChanged⟩
  | ok document =>
      cases dryRun with
      | true =>
          -- A dry run says so, and shows the text if there is one.
          have shows (stage : Stage) (same : stage.text = stored) :
              Makes (Engine.preview document) stage []
                ((document.render.mapError .render).map .rendered) stored := by
            refine (Makes.logAll _ same).silent fun stage same => ?_
            cases document.render with
            | error error => exact Makes.pure _ same
            | ok text => exact Makes.pure _ same
          cases isRendered : document.render with
          | error error =>
              rw [isRendered] at shows
              exact ⟨_, _, _, .unrendered rfl isChanged isRendered, fun _ =>
                makes_change isChanged shows⟩
          | ok text =>
              rw [isRendered] at shows
              exact ⟨_, _, _, .rendered rfl isChanged isRendered, fun _ =>
                makes_change isChanged shows⟩
      | false =>
          have same := Script.changed_interface isChanged
          have saves (stage : Stage) (kept : stage.text = stored) := makes_save script document kept
          rw [same] at saves
          cases isSaved : script.saved document with
          | error error =>
              rw [isSaved] at saves
              refine ⟨_, _, _, .unsaved rfl isChanged isSaved, fun _ => makes_change isChanged ?_⟩
              exact fun stage kept => (saves stage kept).silent fun _ => Makes.pure _
          | ok text =>
              rw [isSaved] at saves
              obtain ⟨made, result, reconciles, makes⟩ := makes_reconcile script false
              refine ⟨_, _, _, .committed rfl isChanged isSaved reconciles, fun _ =>
                makes_change isChanged ?_⟩
              exact fun stage kept => (saves stage kept).bind fun stage kept =>
                makes stage (some text) kept

/-- Every action goes one of the ways that there are. -/
theorem perform_course (script : Script) (dryRun : Bool) (interface : String) (action : Action)
    (before : Stage) :
    ∃ made result left, Course script dryRun interface before.text action made result left ∧
      Makes ((engine script dryRun).perform interface action) before made result left := by
  have started : Makes (MonadLog.logAll [.info s!"{action.name} on {interface}"]) before [] ()
      before.text := Makes.logAll _ rfl
  cases action with
  | getDhcp family =>
      obtain ⟨made, result, left, course, makes⟩ :=
        answer_course script dryRun interface family before.text
      exact ⟨made, result, left, course, started.bind makes⟩
  | restart =>
      obtain ⟨made, result, left, course, makes⟩ :=
        restart_course script dryRun interface before.text
      exact ⟨made, result, left, course, started.bind makes⟩
  | change edit =>
      obtain ⟨made, result, left, course, makes⟩ :=
        change_course script dryRun interface edit before.text
      exact ⟨made, result, left, course, started.bind makes⟩

/-! ## What the ways have in common -/

variable {result : Except ActionError Outcome}

namespace Reconciles

variable {ends : Except ReconcileError ReconcileReport}

theorem generates (reconciles : Reconciles script made ends) :
    [.run .generate] <+: made ∧ made <+: [.run .generate, .run .apply] := by
  cases reconciles with
  | stopped => exact ⟨List.prefix_rfl, by simp⟩
  | failed => exact ⟨by simp, List.prefix_rfl⟩
  | finished => exact ⟨by simp, List.prefix_rfl⟩

/-- Apply has a generate before it that ended with status zero. -/
theorem applies (reconciles : Reconciles script made ends) (applied : .run .apply ∈ made) :
    ∃ output, script.phase .generate = .ok output ∧ output.status = some 0 := by
  cases reconciles with
  | stopped => simp at applied
  | failed isGenerated => exact ⟨_, Script.completed_eq_ok.mp isGenerated⟩
  | finished isGenerated => exact ⟨_, Script.completed_eq_ok.mp isGenerated⟩

/-- A reconciliation makes no other calls than to run phases. -/
theorem runs (reconciles : Reconciles script made ends) {call : Call} (member : call ∈ made) :
    ∃ phase, call = .run phase := by
  have planned := reconciles.generates.2.subset member
  simp only [List.mem_cons, List.not_mem_nil, or_false] at planned
  rcases planned with same | same
  · exact ⟨_, same⟩
  · exact ⟨_, same⟩

end Reconciles

namespace Course

variable (course : Course script dryRun interface stored action made result left)

include course

theorem ordered : made <+: action.plan interface := by
  cases course with
  | restarted _ reconciles => exact reconciles.generates.2
  | committed _ _ _ reconciles =>
      obtain ⟨rest, same⟩ := reconciles.generates.2
      exact ⟨rest, by rw [Action.plan, ← same]; rfl⟩
  | _ => simp [Action.plan]

theorem dry (isDry : dryRun = true) : made <+: [.load interface] := by
  cases course with
  | restarted wet => exact Bool.noConfusion (wet.symm.trans isDry)
  | unsaved wet => exact Bool.noConfusion (wet.symm.trans isDry)
  | committed wet => exact Bool.noConfusion (wet.symm.trans isDry)
  | _ => simp

/-- The document that is saved was loaded and changed before. -/
theorem saves (saved : .save interface ∈ made) : ∃ edit document, action = .change edit ∧
    dryRun = false ∧ script.changed interface edit stored = .ok document := by
  cases course with
  | restarted _ reconciles =>
      obtain ⟨phase, same⟩ := reconciles.runs saved
      cases same
  | unsaved wet changes => exact ⟨_, _, rfl, wet, changes⟩
  | committed wet changes => exact ⟨_, _, rfl, wet, changes⟩
  | _ => simp at saved

theorem generates (generated : .run .generate ∈ made) : action = .restart ∨
    ∃ edit text, action = .change edit ∧ .save interface ∈ made ∧
      script.Commits interface edit stored text ∧ left = some text := by
  cases course with
  | restarted => exact Or.inl rfl
  | committed _ changes saves =>
      obtain ⟨unfailing, renders⟩ := Script.saved_eq_ok.mp saves
      exact Or.inr ⟨_, _, rfl, by simp, ⟨_, changes, unfailing, renders⟩, rfl⟩
  | _ => simp at generated

theorem applies (applied : .run .apply ∈ made) : .run .generate ∈ made ∧
    ∃ output, script.phase .generate = .ok output ∧ output.status = some 0 := by
  cases course with
  | restarted _ reconciles =>
      exact ⟨reconciles.generates.1.subset (by simp), reconciles.applies applied⟩
  | @committed _ _ _ later _ _ _ _ reconciles =>
      have applies : .run .apply ∈ later := by simpa using applied
      have generates : .run .generate ∈ later := reconciles.generates.1.subset (by simp)
      exact ⟨by simp [generates], reconciles.applies applies⟩
  | _ => simp at applied

/-- A change that can be saved is saved and put into effect, also where it changes nothing. -/
theorem commits {edit : Edit} {text : String} (isChange : action = .change edit)
    (wet : dryRun = false) (commits : script.Commits interface edit stored text) :
    [.load interface, .save interface, .run .generate] <+: made ∧ left = some text := by
  obtain ⟨document, changes, unfailing, renders⟩ := commits
  have saves := Script.saved_eq_ok.mpr ⟨unfailing, renders⟩
  cases course with
  | unchanged fails =>
      cases isChange
      cases fails.symm.trans changes
  | unrendered dry => exact Bool.noConfusion (wet.symm.trans dry)
  | rendered dry => exact Bool.noConfusion (wet.symm.trans dry)
  | unsaved _ others fails =>
      cases isChange
      cases others.symm.trans changes
      cases fails.symm.trans saves
  | committed _ others written reconciles =>
      cases isChange
      cases others.symm.trans changes
      cases written.symm.trans saves
      exact ⟨by simpa using reconciles.generates.1, rfl⟩
  | _ => cases isChange

/-- The text that is left is the one before, unless a save has stored that of the changed
document. -/
theorem stores : left = stored ∨ ∃ edit text, action = .change edit ∧ dryRun = false ∧
    .save interface ∈ made ∧ script.Commits interface edit stored text ∧ left = some text := by
  cases course with
  | committed wet changes saves =>
      obtain ⟨unfailing, renders⟩ := Script.saved_eq_ok.mp saves
      exact Or.inr ⟨_, _, rfl, wet, by simp, ⟨_, changes, unfailing, renders⟩, rfl⟩
  | _ => exact Or.inl rfl

/-- A change that failed anywhere but in the reconciliation, like any other action that failed,
leaves the text as it was. -/
theorem keeps {error : ActionError} (failed : result = .error error)
    (early : ∀ edit cause, action = .change edit → error ≠ .reconcile cause) : left = stored := by
  cases course with
  | @committed edit _ _ _ ends =>
      cases ends with
      | error cause =>
          cases failed
          exact (early edit cause rfl rfl).elim
      | ok report => cases failed
  | _ => rfl

theorem lasts {edit : Edit} {cause : ReconcileError} (isChange : action = .change edit)
    (failed : result = .error (.reconcile cause)) :
    ∃ text, script.Commits interface edit stored text ∧ left = some text := by
  cases course with
  | committed _ changes saves =>
      cases isChange
      obtain ⟨unfailing, renders⟩ := Script.saved_eq_ok.mp saves
      exact ⟨_, ⟨_, changes, unfailing, renders⟩, rfl⟩
  | unchanged fails =>
      cases failed
      exact (Script.changed_ne_reconcile fails).elim
  | unrendered => cases failed
  | rendered => cases failed
  | unsaved => cases failed
  | _ => cases isChange

end Course

/-! ## Performing an action -/

/-- What is seen of an engine that performs an action: its calls, its result and the stored text. -/
structure Orderly (script : Script) (dryRun : Bool) (interface : String) (action : Action)
    (before : Stage) (made : List Call) (result : Except ActionError Outcome) (after : Stage) :
    Prop where
  /-- The calls come after those before, in their order, and each at most once. -/
  calls : after.calls = before.calls ++ made
  ordered : made <+: action.plan interface
  once : made.Nodup
  /-- Before a save the document was loaded and changed. -/
  saves : .save interface ∈ made → ∃ edit document, action = .change edit ∧
    script.changed interface edit before.text = .ok document
  /-- Before generate a save has succeeded, except for a restart. -/
  generates : .run .generate ∈ made → action = .restart ∨
    ∃ edit text, action = .change edit ∧ .save interface ∈ made ∧
      script.Commits interface edit before.text text ∧ after.text = some text
  /-- Before apply generate has ended with status zero. -/
  applies : .run .apply ∈ made → .run .generate ∈ made ∧
    ∃ output, script.phase .generate = .ok output ∧ output.status = some 0
  dry : dryRun = true → .save interface ∉ made ∧ ∀ phase, .run phase ∉ made
  /-- Only a save that succeeds changes the text, and to that of the changed document. -/
  stores : after.text = before.text ∨
    ∃ edit text, action = .change edit ∧ dryRun = false ∧ .save interface ∈ made ∧
      script.Commits interface edit before.text text ∧ after.text = some text
  /-- A change that can be saved is saved and put into effect, also where it changes nothing. -/
  commits : ∀ edit text, action = .change edit → dryRun = false →
    script.Commits interface edit before.text text →
    [.load interface, .save interface, .run .generate] <+: made ∧ after.text = some text
  /-- A failure before the save has succeeded leaves the text as it was. -/
  keeps : ∀ error, result = .error error →
    (∀ edit cause, action = .change edit → error ≠ .reconcile cause) → after.text = before.text
  /-- A failure in the reconciliation leaves the new text. -/
  lasts : ∀ edit cause, action = .change edit → result = .error (.reconcile cause) →
    ∃ text, script.Commits interface edit before.text text ∧ after.text = some text

/-- The text that an action leaves, from which no phase is asked for. -/
def leaves (script : Script) (dryRun : Bool) (interface : String) (action : Action)
    (stored : Option String) : Option String :=
  match dryRun, action with
  | false, .change edit =>
    match script.changed interface edit stored with
    | .error _ => stored
    | .ok document =>
      match script.saved document with
      | .error _ => stored
      | .ok text => some text
  | _, _ => stored

theorem Course.leaves (course : Course script dryRun interface stored action made result left) :
    left = Rehearsal.leaves script dryRun interface action stored := by
  cases course with
  | unsaved wet changes fails => simp only [Rehearsal.leaves, wet, changes, fails]
  | committed wet changes saves => simp only [Rehearsal.leaves, wet, changes, saves]
  | unrendered dry => rw [dry, Rehearsal.leaves]; simp
  | rendered dry => rw [dry, Rehearsal.leaves]; simp
  | unchanged fails => cases dryRun <;> simp only [Rehearsal.leaves, fails]
  | _ => cases dryRun <;> rfl

/-- Whatever is stored and however the calls end, an engine makes its calls in order, each only after
the ones it depends on have succeeded, and the stored text is changed by a save that succeeds and by
nothing else. How the phases end makes no difference to the text. -/
theorem perform_orderly (script : Script) (dryRun : Bool) (interface : String) (action : Action)
    (before : Stage) :
    (∃ made, Orderly script dryRun interface action before made
      (((engine script dryRun).perform interface action).run before).1
      (((engine script dryRun).perform interface action).run before).2) ∧
    ∀ phase : Phase → Except ReconcileError PhaseOutput,
      (((engine { script with phase } dryRun).perform interface action).run before).2.text =
        (((engine script dryRun).perform interface action).run before).2.text := by
  obtain ⟨made, result, left, course, makes⟩ :=
    perform_course script dryRun interface action before
  constructor
  · refine ⟨made, ?_⟩
    rw [makes.value]
    have nodup : (action.plan interface).Nodup := by
      cases action with
      | getDhcp => simp [Action.plan]
      | restart => simp [Action.plan]
      | change => simp [Action.plan]
    constructor
    case calls => exact makes.calls
    case ordered => exact course.ordered
    case once => exact nodup.sublist course.ordered.sublist
    case saves =>
      intro saved
      obtain ⟨edit, document, isChange, _, changes⟩ := course.saves saved
      exact ⟨edit, document, isChange, changes⟩
    case generates =>
      rw [makes.text]
      exact course.generates
    case applies => exact course.applies
    case dry =>
      intro isDry
      have only := (course.dry isDry).subset
      exact ⟨fun saved => by simpa using only saved, fun phase ran => by simpa using only ran⟩
    case stores =>
      rw [makes.text]
      exact course.stores
    case commits =>
      rw [makes.text]
      exact fun edit text => course.commits
    case keeps =>
      rw [makes.text]
      exact fun error => course.keeps
    case lasts =>
      rw [makes.text]
      exact fun edit cause => course.lasts
  · intro phase
    obtain ⟨_, _, _, otherCourse, otherMakes⟩ :=
      perform_course { script with phase } dryRun interface action before
    rw [makes.text, otherMakes.text, course.leaves, otherCourse.leaves]
    rfl

/-- Generate fails: the new text stays, and apply is not run. -/
example :
    let script : Script := { phase := fun phase => .ok ⟨phase, some 1, "", ""⟩ }
    let after :=
      (((engine script false).perform "eth0" (.change (.setDhcp "4"))).run { text := none }).2
    after.calls = [.load "eth0", .save "eth0", .run .generate] ∧
      after.text = some "network:\n  version: 2\n  ethernets:\n    eth0:\n      dhcp4: true\n" := by
  decide +kernel

end Rehearsal

end NetplanEditor
