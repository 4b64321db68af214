import NetplanEditor.Proofs.Routine.Faults

/-!
# What a computation can do at most

`Gives permit post` says of a computation what can be seen from its calls alone: whatever they
answer, it changes files and runs programs only as `permit` allows, and the value at its end
satisfies `post`. A computation that may not change files leaves them as they are at every moment,
also where calls fail (`Gives.sees`), and in every world a computation does what it is permitted to
do and no more (`World.perform_gives`). What only looks can be passed over (`World.ComesTo.after`).
-/

namespace NetplanEditor

/-- What a computation is allowed to do besides looking. -/
structure Permit where
  /-- Files may be changed. -/
  changes : Bool
  /-- Programs may be run. -/
  runs : Bool

/-- Nothing is allowed but to look. -/
def Permit.look : Permit := ⟨false, false⟩

/-- Files may be changed. -/
def Permit.write : Permit := ⟨true, false⟩

/-- Programs may be run. -/
def Permit.launch : Permit := ⟨false, true⟩

namespace Routine

variable {α β : Type} {permit : Permit} {post : α → Prop} {routine next : Routine α}

/-- Whatever its calls answer, the computation does only what is permitted, and ends with a value
that satisfies `post`. -/
inductive Gives (permit : Permit) (post : α → Prop) : Routine α → Prop
  | done {value : α} : post value → Gives permit post (.done value)
  | isPresent {path : String} {next : Bool → Routine α} :
    (∀ answer, Gives permit post (next answer)) → Gives permit post (.isPresent path next)
  | isDirectory {path : String} {next : Bool → Routine α} :
    (∀ answer, Gives permit post (next answer)) → Gives permit post (.isDirectory path next)
  | read {path : String} {next : Except SystemError ByteArray → Routine α} :
    (∀ answer, Gives permit post (next answer)) → Gives permit post (.read path next)
  | makeDirectory {path : String} {next : Except SystemError Unit → Routine α} :
    permit.changes = true → (∀ answer, Gives permit post (next answer)) →
    Gives permit post (.makeDirectory path next)
  | write {path : String} {content : ByteArray} {next : Except SystemError Unit → Routine α} :
    permit.changes = true → (∀ answer, Gives permit post (next answer)) →
    Gives permit post (.write path content next)
  | remove {path : String} {next : Except SystemError Unit → Routine α} :
    permit.changes = true → (∀ answer, Gives permit post (next answer)) →
    Gives permit post (.remove path next)
  | link {old new : String} {next : Except SystemError Unit → Routine α} :
    permit.changes = true → (∀ answer, Gives permit post (next answer)) →
    Gives permit post (.link old new next)
  | copy {old new : String} {next : Except SystemError Unit → Routine α} :
    permit.changes = true → (∀ answer, Gives permit post (next answer)) →
    Gives permit post (.copy old new next)
  | rename {old new : String} {next : Except SystemError Unit → Routine α} :
    permit.changes = true → (∀ answer, Gives permit post (next answer)) →
    Gives permit post (.rename old new next)
  | run {program : String} {phase : Phase} {next : Except SystemError ProcessResult → Routine α} :
    permit.runs = true → (∀ answer, Gives permit post (next answer)) →
    Gives permit post (.run program phase next)
  | log {event : LogEvent} {next : Routine α} :
    Gives permit post next → Gives permit post (.log event next)
  | print {text : String} {next : Routine α} :
    Gives permit post next → Gives permit post (.print text next)

namespace Gives

/-! ## Computations put together -/

/-- The next computation goes on from what the first one ends with. -/
theorem bind {middle : α → Prop} {post : β → Prop} {go : α → Routine β}
    (first : Gives permit middle routine)
    (then_ : ∀ value, middle value → Gives permit post (go value)) :
    Gives permit post (routine >>= go) := by
  change Gives permit post (andThen go routine)
  induction first with
  | done ends => exact then_ _ ends
  | isPresent _ ih => exact .isPresent ih
  | isDirectory _ ih => exact .isDirectory ih
  | read _ ih => exact .read ih
  | makeDirectory allowed _ ih => exact .makeDirectory allowed ih
  | write allowed _ ih => exact .write allowed ih
  | remove allowed _ ih => exact .remove allowed ih
  | link allowed _ ih => exact .link allowed ih
  | copy allowed _ ih => exact .copy allowed ih
  | rename allowed _ ih => exact .rename allowed ih
  | run allowed _ ih => exact .run allowed ih
  | log _ ih => exact .log ih
  | print _ ih => exact .print ih

theorem logAll (permit : Permit) (events : List LogEvent) :
    Gives permit (fun _ => True) (Routine.logAll events) := by
  induction events with
  | nil => exact .done trivial
  | cons event events ih => exact .log ih

/-- Logging makes no difference to what comes after. -/
theorem logged (events : List LogEvent) (later : Gives permit post next) :
    Gives permit post (do MonadLog.logAll events; next) :=
  (logAll permit events).bind fun _ _ => later

/-- Sharing a log gives the result that it comes with. -/
theorem share (permit : Permit) (logged : Logged α) :
    Gives permit (fun value => value = logged.value) logged.share :=
  Gives.logged logged.log (.done rfl)

theorem shared {logged : Logged β} {go : β → Routine α}
    (later : Gives permit post (go logged.value)) : Gives permit post (logged.share >>= go) := by
  refine (share permit logged).bind fun value same => ?_
  rw [same]
  exact later

/-- Leaving out events makes no difference. -/
theorem filterLog (keep : LogEvent → Bool) (gives : Gives permit post routine) :
    Gives permit post (routine.filterLog keep) := by
  induction gives with
  | done ends => exact .done ends
  | isPresent _ ih => exact .isPresent ih
  | isDirectory _ ih => exact .isDirectory ih
  | read _ ih => exact .read ih
  | makeDirectory allowed _ ih => exact .makeDirectory allowed ih
  | write allowed _ ih => exact .write allowed ih
  | remove allowed _ ih => exact .remove allowed ih
  | link allowed _ ih => exact .link allowed ih
  | copy allowed _ ih => exact .copy allowed ih
  | rename allowed _ ih => exact .rename allowed ih
  | run allowed _ ih => exact .run allowed ih
  | log _ ih =>
      unfold Routine.filterLog
      split
      · exact .log ih
      · exact ih
  | print _ ih => exact .print ih

/-! ## Runs in which calls fail -/

variable {reliable renamed renamed' : Bool} {fs after seen : FileSystem}

/-- A step of a computation that may not change files leaves them, and what is left of it may not
either. -/
theorem step (gives : Gives permit post routine) (fixed : permit.changes = false)
    (step : Step reliable renamed fs routine renamed' after next) :
    after = fs ∧ Gives permit post next := by
  cases gives with
  | done => cases step
  | isPresent gives =>
      cases step
      exact ⟨rfl, gives _⟩
  | isDirectory gives =>
      cases step
      exact ⟨rfl, gives _⟩
  | read gives =>
      cases step
      exact ⟨rfl, gives _⟩
  | run _ gives =>
      cases step
      exact ⟨rfl, gives _⟩
  | log gives =>
      cases step
      exact ⟨rfl, gives⟩
  | print gives =>
      cases step
      exact ⟨rfl, gives⟩
  | makeDirectory allowed | write allowed | remove allowed | link allowed | copy allowed
  | rename allowed => cases fixed.symm.trans allowed

theorem reach (gives : Gives permit post routine) (fixed : permit.changes = false)
    (reach : Reach reliable renamed fs routine renamed' after next) :
    after = fs ∧ Gives permit post next := by
  induction reach with
  | refl => exact ⟨rfl, gives⟩
  | step step _ ih =>
      obtain ⟨rfl, rest⟩ := gives.step fixed step
      exact ih rest

/-- Whoever looks at the files while a computation runs that may not change them, or after it was
stopped, sees them as they were. -/
theorem sees (gives : Gives permit post routine) (fixed : permit.changes = false)
    (sees : Sees reliable fs routine renamed seen) : seen = fs := by
  obtain ⟨between, rest, reach, here | inside⟩ := sees
  · rw [here]
    exact (gives.reach fixed reach).1
  · have rest := (gives.reach fixed reach).2
    cases inside with
    | write =>
        cases rest with
        | write allowed => cases fixed.symm.trans allowed
    | copy =>
        cases rest with
        | copy allowed => cases fixed.symm.trans allowed

end Gives

end Routine

/-! ## Runs without failures -/

namespace World

open Routine (Gives)

variable {α β : Type} {permit : Permit} {post : α → Prop} {routine : Routine α}

/-- What a computation has left alone that was permitted only so much. -/
structure Within (permit : Permit) (world later : World) : Prop where
  host : later.host = world.host
  files : permit.changes = false → later.files = world.files
  calls : permit.runs = false → later.calls = world.calls

theorem Within.trans {world later last : World} (first : Within permit world later)
    (next : Within permit later last) : Within permit world last :=
  ⟨next.host.trans first.host, fun fixed => (next.files fixed).trans (first.files fixed),
    fun still => (next.calls still).trans (first.calls still)⟩

theorem Within.change (world : World) (allowed : permit.changes = true)
    (result : Except SystemError FileSystem) : Within permit world (world.change result).2 := by
  cases result with
  | ok files => exact ⟨rfl, fun fixed => (by cases fixed.symm.trans allowed), fun _ => rfl⟩
  | error cause => exact ⟨rfl, fun _ => rfl, fun _ => rfl⟩

/-- In a world, a computation ends as it says and does no more than it may. -/
theorem perform_gives (gives : Gives permit post routine) (world : World) :
    post (world.perform routine).1 ∧ Within permit world (world.perform routine).2 := by
  have changed {next : Except SystemError Unit → Routine α} (allowed : permit.changes = true)
      (ih : ∀ answer, ∀ world : World,
        post (world.perform (next answer)).1 ∧ Within permit world (world.perform (next answer)).2)
      (world : World) (result : Except SystemError FileSystem) :
      post ((world.change result).2.perform (next (world.change result).1)).1 ∧
        Within permit world ((world.change result).2.perform (next (world.change result).1)).2 := by
    obtain ⟨ends, kept⟩ := ih (world.change result).1 (world.change result).2
    exact ⟨ends, (Within.change world allowed result).trans kept⟩
  induction gives generalizing world with
  | done ends => exact ⟨ends, rfl, fun _ => rfl, fun _ => rfl⟩
  | isPresent _ ih => exact ih _ world
  | isDirectory _ ih => exact ih _ world
  | read _ ih => exact ih _ world
  | makeDirectory allowed _ ih => exact changed allowed ih world _
  | write allowed _ ih => exact changed allowed ih world _
  | remove allowed _ ih => exact changed allowed ih world _
  | link allowed _ ih => exact changed allowed ih world _
  | copy allowed _ ih => exact changed allowed ih world _
  | rename allowed _ ih => exact changed allowed ih world _
  | @run program phase next allowed _ ih =>
      rw [perform_run]
      cases world.host world.files program phase with
      | error cause => exact ih _ world
      | ok result =>
          obtain ⟨ends, kept⟩ := ih (.ok result) { world with calls := world.calls ++ [phase] }
          exact ⟨ends, kept.host, kept.files, fun still => (by cases still.symm.trans allowed)⟩
  | @log event next _ ih =>
      obtain ⟨ends, kept⟩ := ih { world with events := world.events ++ [event] }
      exact ⟨ends, kept.host, kept.files, kept.calls⟩
  | @print text next _ ih =>
      obtain ⟨ends, kept⟩ := ih { world with printed := world.printed ++ text }
      exact ⟨ends, kept.host, kept.files, kept.calls⟩

/-- In a world, the computation comes to the same value and files as `rest`. -/
structure ComesTo (world : World) (routine rest : Routine α) : Prop where
  value : (world.perform routine).1 = (world.perform rest).1
  files : (world.perform routine).2.files = (world.perform rest).2.files

namespace ComesTo

variable {world : World} {rest last : Routine α} {looking : Routine β} {go : β → Routine α}

theorem trans (first : world.ComesTo routine rest) (next : world.ComesTo rest last) :
    world.ComesTo routine last :=
  ⟨first.value.trans next.value, first.files.trans next.files⟩

/-- A computation that only looks can be passed over but for its value. -/
theorem after {post : β → Prop} (gives : Gives .look post looking) (world : World) :
    world.ComesTo (looking >>= go) (go (world.perform looking).1) := by
  obtain ⟨_, kept⟩ := perform_gives gives world
  have alike : world.Alike (world.perform looking).2 := ⟨kept.files rfl, kept.host⟩
  obtain ⟨value, later⟩ := alike.perform (go (world.perform looking).1)
  rw [← perform_bind] at value later
  exact ⟨value, later.files⟩

theorem logged (events : List LogEvent) : world.ComesTo (do MonadLog.logAll events; rest) rest :=
  after (Gives.logAll .look events) world

theorem shared (logged : Logged β) : world.ComesTo (logged.share >>= go) (go logged.value) := by
  have same := (perform_gives (Gives.share .look logged) world).1
  rw [← same]
  exact after (Gives.share .look logged) world

end ComesTo

end World

end NetplanEditor
