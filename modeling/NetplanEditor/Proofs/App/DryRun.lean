import NetplanEditor.App
import NetplanEditor.Proofs.Config.Resolution
import NetplanEditor.Proofs.Engine.Preview
import NetplanEditor.Proofs.Store.History
import NetplanEditor.Proofs.Store.Permits

/-!
# Dry runs of the program

On files the two runs of a change do the same until they have the changed document
(`Engine.change_comesTo`). From there the dry one only looks, and the real one saves. A save tells
the lack of a text from all that can go wrong with files, so the outcome of the change alone decides
how both end (`App.perform_shown`, `App.perform_written`), as it does on a stage. Of the program as
a whole it is seen from its calls that a dry run changes no file and runs nothing
(`App.invoke_gives`).
-/

namespace NetplanEditor

open Routine (Gives)

namespace FileStore

/-- What is loaded has come about. -/
theorem found_reachable {store : FileStore} {interface : String}
    {content : Except SystemError ByteArray} {document : Document}
    (loaded : store.found interface content = .ok document) :
    Document.Reachable interface document := by
  unfold found at loaded
  split at loaded
  · split at loaded
    · cases loaded
      exact .skeleton
    · cases loaded
  · split at loaded
    · cases loaded
    · exact .parsed (mapError_eq_ok loaded)

end FileStore

/-! ## What the engine may do -/

namespace Reconciler

variable {reconciler : Reconciler Routine}
  (runs : ∀ phase, Gives .launch (fun _ => True) (reconciler.runPhase phase))

include runs

theorem complete_gives (phase : Phase) (failure : PhaseOutput → ReconcileError) :
    Gives .launch (fun _ => True) (reconciler.complete phase failure) := by
  refine (runs phase).bind fun value _ => ?_
  cases value with
  | error error => exact .done trivial
  | ok output => exact Gives.logged _ (.done trivial)

theorem reconcile_gives : Gives .launch (fun _ => True) reconciler.reconcile := by
  refine (complete_gives runs _ _).bind fun value _ => ?_
  cases value with
  | error error => exact .done trivial
  | ok generate =>
      refine (complete_gives runs _ _).bind fun value _ => ?_
      cases value with
      | error error => exact .done trivial
      | ok apply => exact Gives.logged _ (.done trivial)

end Reconciler

namespace Engine

variable {engine : Engine Routine} {interface : String}

/-- What is left after the save runs programs only, and does not fail as a save does. -/
theorem reconcile_gives
    (runs : ∀ phase, Gives .launch (fun _ => True) (engine.reconciler.runPhase phase)) :
    Gives .launch (fun result => Rehearsal.passedSave result = true) engine.reconcile := by
  refine (Reconciler.reconcile_gives runs).bind fun value _ => ?_
  cases value with
  | error error => exact .done rfl
  | ok report => exact .done rfl

theorem preview_gives {document : Document} {post : Except ActionError Outcome → Prop}
    (shows : post (shown (.ok document.render))) : Gives .look post (preview document) := by
  refine Gives.logged _ ?_
  cases renders : document.render with
  | error cause =>
      rw [renders] at shows
      exact .done shows
  | ok text =>
      rw [renders] at shows
      exact .done shows

/-- What an engine does with a changed document. -/
def finish (engine : Engine Routine) (document : Document) : Routine (Except ActionError Outcome) :=
  if engine.dryRun then preview document else engine.commit document

/-- Where loading only looks, a change in a world comes down to what is done with the changed
document. -/
theorem change_comesTo (engine : Engine Routine) (edit : Edit)
    (looks : Gives .look (fun _ => True) (engine.store.load interface)) (world : World) :
    world.ComesTo (engine.perform interface (.change edit))
      (match edit.changed (world.perform (engine.store.load interface)).1 with
      | .error error => .done (.error error)
      | .ok after => engine.finish after) := by
  refine (World.ComesTo.logged _).trans ((World.ComesTo.after looks world).trans ?_)
  cases (world.perform (engine.store.load interface)).1 with
  | error error => exact ⟨rfl, rfl⟩
  | ok document =>
      refine (World.ComesTo.shared _).trans ?_
      dsimp only [Edit.changed]
      cases (edit.apply document).value with
      | error error => exact ⟨rfl, rfl⟩
      | ok after => exact ⟨rfl, rfl⟩

end Engine

/-! ## Changes on files -/

namespace App

variable {world : World}

theorem engineFor_runs (config : Config) (phase : Phase) :
    Gives .launch (fun _ => True) ((engineFor config).reconciler.runPhase phase) :=
  .log (.run rfl fun _ => .done trivial)

/-- The directory of the documents of a run. -/
def storeOf (config : Config) : FileStore := ⟨config.configDir, config.filePrefix⟩

/-- A document that has a text is stored, unless something goes wrong with the files. -/
theorem commit_stores (config : Config) {document : Document} {text : String}
    (renders : document.render = .ok text)
    (unfailing : ∀ cause, (world.perform ((engineFor config).commit document)).1 =
      .error (.save cause) → ∃ fault, cause = .unwritable fault) :
    Rehearsal.passedSave (world.perform ((engineFor config).commit document)).1 = true ∧
      (world.files.Ready ((storeOf config).front document.interface) →
        (world.perform ((engineFor config).commit document)).2.files.read
          ((storeOf config).pathFor document.interface) = .ok text.toUTF8) := by
  obtain ⟨hasText, _⟩ := World.perform_gives ((storeOf config).save_gives renders) world
  have ends := Routine.perform_ends world ((storeOf config).save document)
  have commits : world.perform ((engineFor config).commit document) = _ :=
    World.perform_bind world ((storeOf config).save document) _
  rw [commits] at unfailing ⊢
  cases saved : (world.perform ((storeOf config).save document)).1 with
  | error cause =>
      rw [saved] at unfailing hasText
      obtain ⟨fault, rfl⟩ := unfailing cause rfl
      exact (hasText fault rfl).elim
  | ok =>
      rw [saved] at ends
      obtain ⟨passed, kept⟩ := World.perform_gives (Engine.reconcile_gives (engineFor_runs config))
        (world.perform ((storeOf config).save document)).2
      refine ⟨passed, fun ready => ?_⟩
      obtain ⟨content, safe, _, written⟩ := FileStore.save_over (storeOf config) ready ends
      obtain ⟨other, same, rfl⟩ := written rfl
      cases renders.symm.trans same
      rw [FileStore.pathFor_eq]
      exact (congrArg (FileSystem.read · _) (kept.files rfl)).trans (safe.document rfl)

/-- What is found on files for the interface of a run. -/
def loaded (config : Config) (world : World) : Except LoadError Document :=
  (storeOf config).found config.interface
    (world.files.read ((storeOf config).pathFor config.interface))

/-- The same run, dry or not. -/
def runFor (config : Config) (edit : Edit) (dryRun : Bool) :
    Routine (Except ActionError Outcome) :=
  (engineFor { config with dryRun }).perform config.interface (.change edit)

theorem runFor_comesTo (config : Config) (edit : Edit) (dryRun : Bool) (world : World) :
    world.ComesTo (runFor config edit dryRun)
      (match edit.changed (loaded config world) with
      | .error error => .done (.error error)
      | .ok after => (engineFor { config with dryRun }).finish after) := by
  have looks := (storeOf config).load_gives config.interface
  have comes := Engine.change_comesTo (engineFor { config with dryRun }) edit looks world
  have loads : (world.perform ((engineFor { config with dryRun }).store.load config.interface)).1 =
      loaded config world := FileStore.perform_load world (storeOf config) config.interface
  rw [loads] at comes
  exact comes

/-- How a dry run of a change ends on files. -/
theorem perform_shown (config : Config) (edit : Edit) (world : World) :
    (world.perform (runFor config edit true)).1 =
      Engine.shown (edit.outcome (loaded config world)) := by
  rw [(runFor_comesTo config edit true world).value]
  unfold Edit.outcome
  cases edit.changed (loaded config world) with
  | error error => rfl
  | ok after =>
      have shows : Gives .look (fun result => result = Engine.shown (.ok after.render))
          (Engine.preview after) := Engine.preview_gives rfl
      exact (World.perform_gives shows world).1

/-- How a real run of a change ends on files, where nothing goes wrong with them. -/
theorem perform_written (config : Config) (edit : Edit) (world : World)
    (unfailing : ∀ cause, (world.perform (runFor config edit false)).1 = .error (.save cause) →
      ∃ fault, cause = .unwritable fault) :
    Engine.Fulfils (world.perform (runFor config edit false)).1
      ((world.perform (runFor config edit false)).2.files = world.files)
      (fun text => world.files.Ready ((storeOf config).front config.interface) →
        (world.perform (runFor config edit false)).2.files.read
          ((storeOf config).pathFor config.interface) = .ok text.toUTF8)
      (Engine.written (edit.outcome (loaded config world))) := by
  have comes := runFor_comesTo config edit false world
  rw [comes.value] at unfailing
  rw [comes.value, comes.files]
  unfold Edit.outcome
  cases changes : edit.changed (loaded config world) with
  | error error => exact ⟨rfl, rfl⟩
  | ok after =>
      have isAsked : after.interface = config.interface :=
        (Edit.changed_reachable (fun _ found => FileStore.found_reachable found) changes).sound.1
      have commits : (engineFor { config with dryRun := false }).finish after =
          (engineFor { config with dryRun := false }).commit after := rfl
      rw [changes] at unfailing
      dsimp only [Except.map] at unfailing ⊢
      rw [commits] at unfailing ⊢
      cases renders : after.render with
      | error cause =>
          have refuses : (engineFor { config with dryRun := false }).store.save after = _ :=
            (storeOf config).save_unwritable renders
          rw [Engine.commit, refuses]
          exact ⟨rfl, rfl⟩
      | ok text =>
          rw [← isAsked]
          exact commit_stores { config with dryRun := false } renders unfailing

/-- A dry run on files tells what a real one does with which nothing goes wrong. -/
theorem perform_predicts (config : Config) (edit : Edit) (world : World)
    (unfailing : ∀ cause, (world.perform (runFor config edit false)).1 = .error (.save cause) →
      ∃ fault, cause = .unwritable fault) :
    Engine.Predicts (world.perform (runFor config edit true)).1
      (world.perform (runFor config edit false)).1
      ((world.perform (runFor config edit false)).2.files = world.files)
      fun text => world.files.Ready ((storeOf config).front config.interface) →
        (world.perform (runFor config edit false)).2.files.read
          ((storeOf config).pathFor config.interface) = .ok text.toUTF8 := by
  rw [perform_shown]
  exact Engine.predicts_of (perform_written config edit world unfailing)

/-! ## The program -/

theorem loadSettings_gives (path : Option String) :
    Gives .look (fun _ => True) (loadSettings path) := by
  cases path with
  | none => exact .done trivial
  | some path =>
      refine .read fun answer => ?_
      cases answer with
      | error cause => exact .done trivial
      | ok content =>
          dsimp only
          cases String.fromUTF8? content with
          | none => exact .done trivial
          | some text => exact .done trivial

/-- The settings have no say in whether a run is dry. -/
theorem resolve_dryRun {arguments : Arguments} {settings : Settings} {config : Config}
    (resolves : Config.resolve arguments settings = .ok config) :
    config.dryRun = arguments.dryRun := by
  obtain ⟨_, _, _, _, _, _, _, dry, _⟩ := Config.parts_of_resolve resolves
  exact dry.symm

theorem loadConfig_gives (arguments : Arguments) :
    Gives .look (fun value => ∀ config, value = .ok config →
      ∃ settings, Config.resolve arguments settings = .ok config) (loadConfig arguments) := by
  refine (loadSettings_gives arguments.config).bind fun value _ => ?_
  cases value with
  | error error => exact .done fun config none => by cases none
  | ok settings => exact .done fun config resolves => ⟨settings, resolves⟩

/-- A dry run of an action only looks. -/
theorem engine_gives (config : Config) (dry : config.dryRun = true) :
    Gives .look (fun _ => True) ((engineFor config).perform config.interface config.action) := by
  have isDry : (engineFor config).dryRun = true := dry
  have looks := (storeOf config).load_gives config.interface
  refine Gives.logged _ ?_
  cases config.action with
  | getDhcp family =>
      refine Gives.bind looks fun value _ => ?_
      cases value with
      | error error => exact .done trivial
      | ok document => exact Gives.logged _ (.done trivial)
  | restart =>
      dsimp only [Engine.restart]
      rw [if_pos isDry]
      exact Gives.logged _ (.done trivial)
  | change edit =>
      refine Gives.bind looks fun value _ => ?_
      cases value with
      | error error => exact .done trivial
      | ok document =>
          refine Gives.shared ?_
          cases (edit.apply document).value with
          | error error => exact .done trivial
          | ok after =>
              dsimp only
              rw [if_pos isDry]
              exact Engine.preview_gives trivial

theorem conclude_gives (result : Except ActionError Outcome) :
    Gives .look (fun _ => True) (conclude result) := by
  unfold conclude
  split
  · exact .print (.done trivial)
  · exact .done trivial
  · exact Gives.logged _ (.done trivial)

/-- A dry run of the program only looks, however it goes on. -/
theorem invoke_gives {arguments : Arguments} (dry : arguments.dryRun = true) :
    Gives .look (fun _ => True) (invoke (.run arguments)) := by
  refine (loadConfig_gives arguments).bind fun value resolved => ?_
  cases value with
  | error error => exact .done trivial
  | ok config =>
      obtain ⟨settings, resolves⟩ := resolved config rfl
      have performs : Gives .look (fun _ => True) (perform config) :=
        Gives.filterLog _ (Gives.logged _
          ((engine_gives config ((resolve_dryRun resolves).trans dry)).bind fun result _ =>
            conclude_gives result))
      exact performs.bind fun _ _ => .done trivial

/-- A dry run tells what the real run would do. On a stage, and on files, it shows the text that the
real run stores, and fails as that does, whatever is stored and however netplan behaves. Asking for
DHCP is the same in both. A dry run of the program changes no file at any moment and runs nothing,
whatever its calls answer. -/
theorem dry_run_tells :
    (∀ (script : Script) (interface : String) (edit : Edit) (before : Stage),
      script.saveFailure = none →
      let dry := Rehearsal.performed script true interface (.change edit) before
      let real := Rehearsal.performed script false interface (.change edit) before
      dry.2.text = before.text ∧
        Engine.Predicts dry.1 real.1 (real.2.text = before.text)
          fun text => real.2.text = some text) ∧
    (∀ (m : Type → Type) [Monad m] [MonadLog m] (engine : Engine m) (interface : String)
      (family : Family),
      ({ engine with dryRun := true } : Engine m).perform interface (.getDhcp family) =
        ({ engine with dryRun := false } : Engine m).perform interface (.getDhcp family)) ∧
    (∀ (config : Config) (edit : Edit) (world : World),
      let ran (dryRun : Bool) := world.perform (runFor config edit dryRun)
      (∀ cause, (ran false).1 = .error (.save cause) → ∃ fault, cause = .unwritable fault) →
      Engine.Predicts (ran true).1 (ran false).1 ((ran false).2.files = world.files)
        fun text => world.files.Ready ((storeOf config).front config.interface) →
          (ran false).2.files.read ((storeOf config).pathFor config.interface) =
            .ok text.toUTF8) ∧
    ∀ words, (∀ invocation, CommandLine.parse words = .ok invocation →
        ∃ arguments, invocation = .run arguments ∧ arguments.dryRun = true) →
      Gives .look (fun _ => True) (run words) ∧
      (∀ reliable fs renamed seen,
        Routine.Sees reliable fs (run words) renamed seen → seen = fs) ∧
      ∀ world : World, (world.perform (run words)).2.files = world.files ∧
        (world.perform (run words)).2.calls = world.calls := by
  refine ⟨fun script interface edit before unfailing => ?_,
    fun m _ _ engine interface family => rfl, fun config edit world unfailing => ?_,
    fun words asksDry => ?_⟩
  · exact ⟨(Rehearsal.performed_dry script interface edit before).2,
      Rehearsal.performed_predicts unfailing⟩
  · dsimp only at unfailing ⊢
    exact perform_predicts config edit world unfailing
  · have gives : Gives .look (fun _ => True) (run words) := by
      unfold run
      cases parsed : CommandLine.parse words with
      | error error => exact .done trivial
      | ok invocation =>
          obtain ⟨arguments, rfl, dry⟩ := asksDry invocation parsed
          exact invoke_gives dry
    refine ⟨gives, fun _ _ _ _ sees => gives.sees rfl sees, fun world => ?_⟩
    obtain ⟨_, kept⟩ := World.perform_gives gives world
    exact ⟨kept.files rfl, kept.calls rfl⟩

/-- A computer with a document that carries a key along, and without netplan. -/
def furnished : World where
  files := {
    objects := [(0, .directory [("etc", 1)]), (1, .directory [("90-eth0.yaml", 2)]),
      (2, .file "network:\n  version: 2\n  ethernets:\n    eth0:\n      mtu: 9000\n".toUTF8 false)]
    root := 0
    working := [0]
    next := 3 }
  host := fun _ _ _ => .error .absent

/-- The run that gives this document a gateway. -/
def furnish : Config where
  interface := "eth0"
  action := .change (.setGateway ["192.0.2.1"])
  configDir := "etc"
  filePrefix := "90-"
  netplan := "netplan"
  dryRun := true
  verbose := false

theorem furnished_ready :
    furnished.files.Ready ((storeOf furnish).front furnish.interface) := by
  have sound : furnished.files.Sound :=
    FileSystem.sound_of_objects (by decide) (by decide) (by decide)
  have tidy : furnished.files.Tidy := .of_objects (.of_objects (by decide)) (by decide)
  have home : furnished.files.homeOf ((storeOf furnish).front furnish.interface) =
      .ok ⟨40, 1, [0]⟩ := by decide +kernel
  exact tidy.ready sound fun missing => by cases home.symm.trans missing

/-- A command line that asks for this run, without changing anything. -/
def furnishing : List String :=
  ["--dry-run", "-a", "set_gateway", "-d", "eth0", "-i", "192.0.2.1", "--config-dir", "etc",
    "--prefix=90-"]

/-- The real run stores what the dry run shows, on a stage and on files. -/
theorem dry_run_tells_gateway :
    let edit : Edit := .setGateway ["192.0.2.1"]
    let script : Script := { phase := fun phase => .error (.spawn phase "netplan" .absent) }
    let text := "network:\n  version: 2\n  ethernets:\n    eth0:\n      gateway4: 192.0.2.1\n" ++
      "      mtu: 9000\n"
    (Rehearsal.performed script false "eth0" (.change edit) { text }).2.text = some text ∧
      (furnished.perform (runFor furnish edit false)).2.files.read "etc/90-eth0.yaml" =
        .ok text.toUTF8 ∧
      (furnished.perform (run furnishing)).2.files = furnished.files := by
  intro edit script text
  obtain ⟨onStage, _, onFiles, ofProgram⟩ := dry_run_tells
  have shownOnStage : (Rehearsal.performed script true "eth0" (.change edit) { text }).1 =
      .ok (.rendered text) := by decide +kernel
  have shownOnFiles : (furnished.perform (runFor furnish edit true)).1 =
      .ok (.rendered text) := by decide +kernel
  have ends : (furnished.perform (runFor furnish edit false)).1 =
      .error (.reconcile (.spawn .generate "netplan" .absent)) := by decide +kernel
  have path : (storeOf furnish).pathFor furnish.interface = "etc/90-eth0.yaml" := by decide +kernel
  have predicts := onFiles furnish edit furnished fun cause same => by cases ends.symm.trans same
  have stored := predicts.stores text shownOnFiles furnished_ready
  dsimp only at stored
  rw [path] at stored
  refine ⟨(onStage script "eth0" edit _ rfl).2.stores text shownOnStage, stored, ?_⟩
  · refine ((ofProgram furnishing fun invocation parses => ?_).2.2 furnished).1
    have asksDry : (match CommandLine.parse furnishing with
      | .ok (.run arguments) => arguments.dryRun
      | _ => false) = true := by decide +kernel
    rw [parses] at asksDry
    cases invocation with
    | run arguments => exact ⟨arguments, rfl, asksDry⟩
    | init output => cases asksDry

end App

end NetplanEditor
