import NetplanEditor.Routine.World

/-!
# Runs in which calls fail

A `World` answers every call as its file system does. Here a call can also fail for a reason of its
own, and the process can stop at any point. A call that fails leaves the files as they were, except
that writing and copying may have been stopped after any number of bytes; renaming is done as a whole
or not at all. No failure of this kind claims that something does not exist. Whoever looks at the
files meanwhile sees them between two calls or inside one (`Sees`).

A run is a chain of steps, and what holds of all its states is shown call by call: `Keeps` says it of
every state that a computation can come to, and has one rule for each call and one for `>>=`.
-/

namespace NetplanEditor

namespace FileSystem

/-- The files after part of a content was written. -/
def WritesPart (fs : FileSystem) (path : String) (content : ByteArray) (after : FileSystem) : Prop :=
  ∃ size, fs.write path (content.extract 0 size) = .ok after

/-- The files after part of a file was copied. -/
def CopiesPart (fs : FileSystem) (old new : String) (after : FileSystem) : Prop :=
  ∃ content, fs.read old = .ok content ∧ fs.WritesPart new content after

/-- How a call ends that makes `whole` of the files if it is carried out, and leaves them as `part`
says if it breaks off. -/
inductive Ending (fs : FileSystem) (whole : Except SystemError FileSystem)
    (part : FileSystem → Prop) : Except SystemError Unit → FileSystem → Prop
  | done {after : FileSystem} : whole = .ok after → Ending fs whole part (.ok ()) after
  | refused {cause : SystemError} : whole = .error cause → Ending fs whole part (.error cause) fs
  | failed {cause : SystemError} : cause.isNotFound = false →
    Ending fs whole part (.error cause) fs
  | broken {cause : SystemError} {after : FileSystem} : cause.isNotFound = false → part after →
    Ending fs whole part (.error cause) after

/-- A call that is carried out as a whole or not at all. -/
abbrev Atomic (fs : FileSystem) (whole : Except SystemError FileSystem) :
    Except SystemError Unit → FileSystem → Prop :=
  Ending fs whole fun _ => False

/-- The answer to a question whose true answer is `truth`. Where looking is not reliable it can fail,
which counts as a no. -/
def Told (reliable truth answer : Bool) : Prop :=
  answer = truth ∨ reliable = false ∧ answer = false

/-- The answer to reading a file that has the outcome `whole` if it is carried out. -/
def Given (whole answer : Except SystemError ByteArray) : Prop :=
  answer = whole ∨ ∃ cause : SystemError, cause.isNotFound = false ∧ answer = .error cause

/-- What an answer says about the call that it ends: it was carried out, or it was not and nothing has
changed unless it broke off. That something does not exist is never said wrongly. -/
theorem Ending.cases {fs after : FileSystem} {whole : Except SystemError FileSystem}
    {part : FileSystem → Prop} {answer : Except SystemError Unit}
    (ending : Ending fs whole part answer after) :
    (answer = .ok () ∧ whole = .ok after) ∨
      ∃ cause, answer = .error cause ∧ (after = fs ∨ part after) ∧
        (cause.isNotFound = true → whole = .error cause ∧ after = fs) := by
  cases ending with
  | done carried => exact Or.inl ⟨rfl, carried⟩
  | refused fails => exact Or.inr ⟨_, rfl, Or.inl rfl, fun _ => ⟨fails, rfl⟩⟩
  | failed other =>
      exact Or.inr ⟨_, rfl, Or.inl rfl, fun notFound => by simp [other] at notFound⟩
  | broken other partly =>
      exact Or.inr ⟨_, rfl, Or.inr partly, fun notFound => by simp [other] at notFound⟩

/-- A call that was carried out has done the whole of it. -/
theorem Ending.of_ok {fs after : FileSystem} {whole : Except SystemError FileSystem}
    {part : FileSystem → Prop} (ending : Ending fs whole part (.ok ()) after) : whole = .ok after := by
  cases ending with
  | done carried => exact carried

/-- A call that is carried out as a whole or not at all changes nothing if it fails. -/
theorem Ending.of_error {fs after : FileSystem} {whole : Except SystemError FileSystem}
    {cause : SystemError} (ending : Atomic fs whole (.error cause) after) : after = fs := by
  cases ending with
  | refused => rfl
  | failed => rfl
  | broken _ none => exact none.elim

end FileSystem

/-- In a world a call is carried out or refused. -/
theorem World.change_ending (world : World) (result : Except SystemError FileSystem)
    (part : FileSystem → Prop) :
    FileSystem.Ending world.files result part (world.change result).1
      (world.change result).2.files := by
  cases result with
  | ok files => exact .done rfl
  | error cause => exact .refused rfl

namespace Routine

open FileSystem (Atomic Ending Told Given)

variable {α β : Type}

/-- One call of a computation. The Boolean tells whether a renaming has been carried out. -/
inductive Step (reliable : Bool) :
    Bool → FileSystem → Routine α → Bool → FileSystem → Routine α → Prop
  | isPresent {renamed fs path next answer} : Told reliable (fs.isPresent path) answer →
    Step reliable renamed fs (.isPresent path next) renamed fs (next answer)
  | isDirectory {renamed fs path next answer} : Told reliable (fs.isDirectory path) answer →
    Step reliable renamed fs (.isDirectory path next) renamed fs (next answer)
  | read {renamed fs path next answer} : Given (fs.read path) answer →
    Step reliable renamed fs (.read path next) renamed fs (next answer)
  | makeDirectory {renamed fs path next answer after} :
    Atomic fs (fs.makeDirectory path) answer after →
    Step reliable renamed fs (.makeDirectory path next) renamed after (next answer)
  | write {renamed fs path content next answer after} :
    Ending fs (fs.write path content) (fs.WritesPart path content) answer after →
    Step reliable renamed fs (.write path content next) renamed after (next answer)
  | remove {renamed fs path next answer after} : Atomic fs (fs.remove path) answer after →
    Step reliable renamed fs (.remove path next) renamed after (next answer)
  | link {renamed fs old new next answer after} : Atomic fs (fs.link old new) answer after →
    Step reliable renamed fs (.link old new next) renamed after (next answer)
  | copy {renamed fs old new next answer after} :
    Ending fs (fs.copy old new) (fs.CopiesPart old new) answer after →
    Step reliable renamed fs (.copy old new next) renamed after (next answer)
  | rename {renamed fs old new next answer after} : Atomic fs (fs.rename old new) answer after →
    Step reliable renamed fs (.rename old new next) (renamed || answer.isOk) after (next answer)
  | run {renamed fs program phase next answer} :
    Step reliable renamed fs (.run program phase next) renamed fs (next answer)
  | log {renamed fs event next} : Step reliable renamed fs (.log event next) renamed fs next
  | print {renamed fs text next} : Step reliable renamed fs (.print text next) renamed fs next

/-- How the files can look inside the next call, which is not over yet. -/
inductive Underway : FileSystem → Routine α → FileSystem → Prop
  | write {fs path content next inside} : fs.WritesPart path content inside →
    Underway fs (.write path content next) inside
  | copy {fs old new next inside} : fs.CopiesPart old new inside →
    Underway fs (.copy old new next) inside

/-- A chain of calls. -/
inductive Reach (reliable : Bool) :
    Bool → FileSystem → Routine α → Bool → FileSystem → Routine α → Prop
  | refl {renamed fs routine} : Reach reliable renamed fs routine renamed fs routine
  | step {renamed fs routine renamed' fs' routine' renamed'' fs'' routine''} :
    Step reliable renamed fs routine renamed' fs' routine' →
    Reach reliable renamed' fs' routine' renamed'' fs'' routine'' →
    Reach reliable renamed fs routine renamed'' fs'' routine''

/-- Someone who looks at the files while the computation runs, or after it was stopped, can see them
like this. -/
def Sees (reliable : Bool) (fs : FileSystem) (routine : Routine α) (renamed : Bool)
    (seen : FileSystem) : Prop :=
  ∃ between rest, Reach reliable false fs routine renamed between rest ∧
    (seen = between ∨ Underway between rest seen)

/-- The computation can end with the value and leave the files like this. -/
def Ends (reliable : Bool) (fs : FileSystem) (routine : Routine α) (value : α)
    (after : FileSystem) : Prop :=
  ∃ renamed, Reach reliable false fs routine renamed after (.done value)

variable {reliable renamed : Bool} {fs after : FileSystem} {routine next : Routine α}

/-! ## What holds in every run -/

/-- In every run `view` holds of all files that can be seen, and `post` at the end. -/
def Keeps (reliable : Bool) (view : Bool → FileSystem → Prop)
    (post : α → Bool → FileSystem → Prop) (routine : Routine α) (renamed : Bool)
    (fs : FileSystem) : Prop :=
  ∀ renamed' between rest, Reach reliable renamed fs routine renamed' between rest →
    view renamed' between ∧ (∀ inside, Underway between rest inside → view renamed' inside) ∧
      ∀ value, rest = .done value → post value renamed' between

namespace Keeps

variable {view : Bool → FileSystem → Prop} {post : α → Bool → FileSystem → Prop}

theorem view_now (keeps : Keeps reliable view post routine renamed fs) : view renamed fs :=
  (keeps _ _ _ .refl).1

/-- What holds in every run holds in what is left of one. -/
theorem after_step {renamed' : Bool} (keeps : Keeps reliable view post routine renamed fs)
    (step : Step reliable renamed fs routine renamed' after next) :
    Keeps reliable view post next renamed' after :=
  fun _ _ _ reach => keeps _ _ _ (.step step reach)

/-- A computation that is not over keeps what its next call shows and leaves to be kept. -/
theorem of_steps (now : view renamed fs) (inside : ∀ inside, Underway fs routine inside →
      view renamed inside) (running : ∀ value, routine ≠ .done value)
    (later : ∀ renamed' after next, Step reliable renamed fs routine renamed' after next →
      Keeps reliable view post next renamed' after) :
    Keeps reliable view post routine renamed fs := by
  intro renamed' between rest reach
  cases reach with
  | refl => exact ⟨now, inside, fun value isDone => (running value isDone).elim⟩
  | step step reach => exact later _ _ _ step _ _ _ reach

/-- What follows from what is kept is kept, too. -/
theorem mono {view' : Bool → FileSystem → Prop} {post' : α → Bool → FileSystem → Prop}
    (keeps : Keeps reliable view post routine renamed fs)
    (views : ∀ renamed fs, view renamed fs → view' renamed fs)
    (posts : ∀ value renamed fs, view renamed fs → post value renamed fs → post' value renamed fs) :
    Keeps reliable view' post' routine renamed fs := by
  intro renamed' between rest reach
  obtain ⟨seen, inside, ended⟩ := keeps _ _ _ reach
  exact ⟨views _ _ seen, fun _ underway => views _ _ (inside _ underway),
    fun value isDone => posts _ _ _ seen (ended value isDone)⟩

theorem done {value : α} (now : view renamed fs) (ends : post value renamed fs) :
    Keeps reliable view post (.done value) renamed fs := by
  intro renamed' between rest reach
  cases reach with
  | refl =>
      refine ⟨now, fun inside underway => (by cases underway), fun other same => ?_⟩
      cases same
      exact ends
  | step step _ => cases step

section Calls

variable (now : view renamed fs)

include now

theorem isPresent {path : String} {next : Bool → Routine α}
    (later : ∀ answer, Told reliable (fs.isPresent path) answer →
      Keeps reliable view post (next answer) renamed fs) :
    Keeps reliable view post (.isPresent path next) renamed fs := by
  refine of_steps now (fun inside underway => by cases underway) (fun value => by simp) ?_
  intro renamed' after rest step
  cases step with
  | isPresent told => exact later _ told

theorem isDirectory {path : String} {next : Bool → Routine α}
    (later : ∀ answer, Keeps reliable view post (next answer) renamed fs) :
    Keeps reliable view post (.isDirectory path next) renamed fs := by
  refine of_steps now (fun inside underway => by cases underway) (fun value => by simp) ?_
  intro renamed' after rest step
  cases step with
  | isDirectory told => exact later _

theorem read {path : String} {next : Except SystemError ByteArray → Routine α}
    (later : ∀ answer, Keeps reliable view post (next answer) renamed fs) :
    Keeps reliable view post (.read path next) renamed fs := by
  refine of_steps now (fun inside underway => by cases underway) (fun value => by simp) ?_
  intro renamed' after rest step
  cases step with
  | read given => exact later _

theorem makeDirectory {path : String} {next : Except SystemError Unit → Routine α}
    (later : ∀ answer after, Atomic fs (fs.makeDirectory path) answer after →
      Keeps reliable view post (next answer) renamed after) :
    Keeps reliable view post (.makeDirectory path next) renamed fs := by
  refine of_steps now (fun inside underway => by cases underway) (fun value => by simp) ?_
  intro renamed' after rest step
  cases step with
  | makeDirectory ending => exact later _ _ ending

theorem write {path : String} {content : ByteArray} {next : Except SystemError Unit → Routine α}
    (inside : ∀ inside, fs.WritesPart path content inside → view renamed inside)
    (later : ∀ answer after, Ending fs (fs.write path content) (fs.WritesPart path content) answer
      after → Keeps reliable view post (next answer) renamed after) :
    Keeps reliable view post (.write path content next) renamed fs := by
  refine of_steps now (fun other underway => ?_) (fun value => by simp) ?_
  · cases underway with
    | write partly => exact inside other partly
  · intro renamed' after rest step
    cases step with
    | write ending => exact later _ _ ending

theorem remove {path : String} {next : Except SystemError Unit → Routine α}
    (later : ∀ answer after, Atomic fs (fs.remove path) answer after →
      Keeps reliable view post (next answer) renamed after) :
    Keeps reliable view post (.remove path next) renamed fs := by
  refine of_steps now (fun inside underway => by cases underway) (fun value => by simp) ?_
  intro renamed' after rest step
  cases step with
  | remove ending => exact later _ _ ending

theorem link {old new : String} {next : Except SystemError Unit → Routine α}
    (later : ∀ answer after, Atomic fs (fs.link old new) answer after →
      Keeps reliable view post (next answer) renamed after) :
    Keeps reliable view post (.link old new next) renamed fs := by
  refine of_steps now (fun inside underway => by cases underway) (fun value => by simp) ?_
  intro renamed' after rest step
  cases step with
  | link ending => exact later _ _ ending

theorem copy {old new : String} {next : Except SystemError Unit → Routine α}
    (inside : ∀ inside, fs.CopiesPart old new inside → view renamed inside)
    (later : ∀ answer after, Ending fs (fs.copy old new) (fs.CopiesPart old new) answer after →
      Keeps reliable view post (next answer) renamed after) :
    Keeps reliable view post (.copy old new next) renamed fs := by
  refine of_steps now (fun other underway => ?_) (fun value => by simp) ?_
  · cases underway with
    | copy partly => exact inside other partly
  · intro renamed' after rest step
    cases step with
    | copy ending => exact later _ _ ending

theorem rename {old new : String} {next : Except SystemError Unit → Routine α}
    (later : ∀ answer after, Atomic fs (fs.rename old new) answer after →
      Keeps reliable view post (next answer) (renamed || answer.isOk) after) :
    Keeps reliable view post (.rename old new next) renamed fs := by
  refine of_steps now (fun inside underway => by cases underway) (fun value => by simp) ?_
  intro renamed' after rest step
  cases step with
  | rename ending => exact later _ _ ending

theorem log {event : LogEvent} {next : Routine α}
    (later : Keeps reliable view post next renamed fs) :
    Keeps reliable view post (.log event next) renamed fs := by
  refine of_steps now (fun inside underway => by cases underway) (fun value => by simp) ?_
  intro renamed' after rest step
  cases step with
  | log => exact later

theorem logAll {post : Unit → Bool → FileSystem → Prop} (ends : post () renamed fs)
    (events : List LogEvent) :
    Keeps reliable view post (Routine.logAll events) renamed fs := by
  induction events with
  | nil => exact done now ends
  | cons event events ih => exact log now ih

end Calls

/-- What a computation ends with is what the next one goes on from. -/
theorem bind {middle : α → Bool → FileSystem → Prop} {view : Bool → FileSystem → Prop}
    {post : β → Bool → FileSystem → Prop} {go : α → Routine β}
    (first : Keeps reliable view middle routine renamed fs)
    (then_ : ∀ value renamed' after, middle value renamed' after → view renamed' after →
      Keeps reliable view post (go value) renamed' after) :
    Keeps reliable view post (routine >>= go) renamed fs := by
  intro renamed' between rest reach
  change Reach reliable renamed fs (andThen go routine) renamed' between rest at reach
  generalize whole : andThen go routine = started at reach
  induction reach generalizing routine with
  | refl =>
      subst whole
      cases routine with
      | done value =>
          exact then_ value _ _ ((first _ _ _ .refl).2.2 value rfl) first.view_now _ _ _ .refl
      | write path content next =>
          refine ⟨first.view_now, fun inside underway => ?_, fun value same => by cases same⟩
          cases underway with
          | write partly => exact (first _ _ _ .refl).2.1 inside (.write partly)
      | copy old new next =>
          refine ⟨first.view_now, fun inside underway => ?_, fun value same => by cases same⟩
          cases underway with
          | copy partly => exact (first _ _ _ .refl).2.1 inside (.copy partly)
      | _ => exact ⟨first.view_now, fun inside underway => (by cases underway),
          fun value same => by cases same⟩
  | step step reach ih =>
      subst whole
      cases routine with
      | done value =>
          exact then_ value _ _ ((first _ _ _ .refl).2.2 value rfl) first.view_now _ _ _
            (.step step reach)
      | isPresent path next =>
          cases step with
          | isPresent told => exact ih (first.after_step (.isPresent told)) rfl
      | isDirectory path next =>
          cases step with
          | isDirectory told => exact ih (first.after_step (.isDirectory told)) rfl
      | read path next =>
          cases step with
          | read given => exact ih (first.after_step (.read given)) rfl
      | makeDirectory path next =>
          cases step with
          | makeDirectory ending => exact ih (first.after_step (.makeDirectory ending)) rfl
      | write path content next =>
          cases step with
          | write ending => exact ih (first.after_step (.write ending)) rfl
      | remove path next =>
          cases step with
          | remove ending => exact ih (first.after_step (.remove ending)) rfl
      | link old new next =>
          cases step with
          | link ending => exact ih (first.after_step (.link ending)) rfl
      | copy old new next =>
          cases step with
          | copy ending => exact ih (first.after_step (.copy ending)) rfl
      | rename old new next =>
          cases step with
          | rename ending => exact ih (first.after_step (.rename ending)) rfl
      | run program phase next =>
          cases step with
          | run => exact ih (first.after_step .run) rfl
      | log event next =>
          cases step with
          | log => exact ih (first.after_step .log) rfl
      | print text next =>
          cases step with
          | print => exact ih (first.after_step .print) rfl

/-- Logging comes before what goes on and makes no difference to it. -/
theorem logged {view : Bool → FileSystem → Prop} {post : α → Bool → FileSystem → Prop}
    (now : view renamed fs) (events : List LogEvent)
    (later : Keeps reliable view post next renamed fs) :
    Keeps reliable view post (do MonadLog.logAll events; next) renamed fs := by
  have first : Keeps reliable view (fun _ renamed' after => renamed' = renamed ∧ after = fs)
      (Routine.logAll events) renamed fs := logAll now ⟨rfl, rfl⟩ events
  refine bind first ?_
  rintro _ _ _ ⟨rfl, rfl⟩ _
  exact later

end Keeps

/-! ## Runs without failures -/

/-- A world carries a computation out in one of its runs, without any failure of a call's own. -/
theorem perform_ends (world : World) (routine : Routine α) :
    Ends true world.files routine (world.perform routine).1 (world.perform routine).2.files := by
  suffices reach : ∀ renamed, ∃ renamed', Reach true renamed world.files routine renamed'
      (world.perform routine).2.files (.done (world.perform routine).1) from reach false
  induction routine generalizing world with
  | done value => exact fun renamed => ⟨renamed, .refl⟩
  | isPresent path next ih =>
      intro renamed
      obtain ⟨renamed', reach⟩ := ih _ world renamed
      exact ⟨renamed', .step (.isPresent (Or.inl rfl)) reach⟩
  | isDirectory path next ih =>
      intro renamed
      obtain ⟨renamed', reach⟩ := ih _ world renamed
      exact ⟨renamed', .step (.isDirectory (Or.inl rfl)) reach⟩
  | read path next ih =>
      intro renamed
      obtain ⟨renamed', reach⟩ := ih _ world renamed
      exact ⟨renamed', .step (.read (Or.inl rfl)) reach⟩
  | makeDirectory path next ih =>
      intro renamed
      obtain ⟨renamed', reach⟩ := ih _ (world.change (world.files.makeDirectory path)).2 renamed
      exact ⟨renamed', .step (.makeDirectory (world.change_ending _ _)) reach⟩
  | write path content next ih =>
      intro renamed
      obtain ⟨renamed', reach⟩ := ih _ (world.change (world.files.write path content)).2 renamed
      exact ⟨renamed', .step (.write (world.change_ending _ _)) reach⟩
  | remove path next ih =>
      intro renamed
      obtain ⟨renamed', reach⟩ := ih _ (world.change (world.files.remove path)).2 renamed
      exact ⟨renamed', .step (.remove (world.change_ending _ _)) reach⟩
  | link old new next ih =>
      intro renamed
      obtain ⟨renamed', reach⟩ := ih _ (world.change (world.files.link old new)).2 renamed
      exact ⟨renamed', .step (.link (world.change_ending _ _)) reach⟩
  | copy old new next ih =>
      intro renamed
      obtain ⟨renamed', reach⟩ := ih _ (world.change (world.files.copy old new)).2 renamed
      exact ⟨renamed', .step (.copy (world.change_ending _ _)) reach⟩
  | rename old new next ih =>
      intro renamed
      obtain ⟨renamed', reach⟩ := ih _ (world.change (world.files.rename old new)).2 _
      exact ⟨renamed', .step (.rename (world.change_ending _ _)) reach⟩
  | run program phase next ih =>
      intro renamed
      unfold World.perform
      cases world.host world.files program phase with
      | error cause =>
          obtain ⟨renamed', reach⟩ := ih (.error cause) world renamed
          exact ⟨renamed', .step .run reach⟩
      | ok result =>
          obtain ⟨renamed', reach⟩ :=
            ih (.ok result) { world with calls := world.calls ++ [phase] } renamed
          exact ⟨renamed', .step .run reach⟩
  | log event next ih =>
      intro renamed
      obtain ⟨renamed', reach⟩ := ih { world with events := world.events ++ [event] } renamed
      exact ⟨renamed', .step .log reach⟩
  | print text next ih =>
      intro renamed
      obtain ⟨renamed', reach⟩ := ih { world with printed := world.printed ++ text } renamed
      exact ⟨renamed', .step .print reach⟩

section Kept

variable {view : Bool → FileSystem → Prop} {post : α → Bool → FileSystem → Prop}

theorem Keeps.sees {seen : FileSystem} (keeps : Keeps reliable view post routine false fs)
    (sees : Sees reliable fs routine renamed seen) : view renamed seen := by
  obtain ⟨between, rest, reach, here | inside⟩ := sees
  · rw [here]
    exact (keeps _ _ _ reach).1
  · exact (keeps _ _ _ reach).2.1 seen inside

theorem Keeps.ends {value : α} (keeps : Keeps reliable view post routine false fs)
    (ends : Ends reliable fs routine value after) :
    ∃ renamed, view renamed after ∧ post value renamed after := by
  obtain ⟨renamed, reach⟩ := ends
  obtain ⟨seen, _, ended⟩ := keeps _ _ _ reach
  exact ⟨renamed, seen, ended value rfl⟩

end Kept

end Routine

namespace World

variable {α β : Type}

theorem perform_run (world : World) (program : String) (phase : Phase)
    (next : Except SystemError ProcessResult → Routine α) :
    world.perform (.run program phase next) =
      match world.host world.files program phase with
      | .error cause => world.perform (next (.error cause))
      | .ok result => { world with calls := world.calls ++ [phase] }.perform (next (.ok result)) :=
  (perform.eq_def _ _).trans rfl

/-- Two computations in a row are carried out one after the other. -/
theorem perform_bind (world : World) (routine : Routine α) (go : α → Routine β) :
    world.perform (routine >>= go) =
      (world.perform routine).2.perform (go (world.perform routine).1) := by
  change world.perform (Routine.andThen go routine) = _
  induction routine generalizing world with
  | done value => rfl
  | isPresent path next ih => exact ih _ world
  | isDirectory path next ih => exact ih _ world
  | read path next ih => exact ih _ world
  | makeDirectory path next ih => exact ih _ _
  | write path content next ih => exact ih _ _
  | remove path next ih => exact ih _ _
  | link old new next ih => exact ih _ _
  | copy old new next ih => exact ih _ _
  | rename old new next ih => exact ih _ _
  | run program phase next ih =>
      simp only [Routine.andThen, perform_run]
      cases world.host world.files program phase with
      | error cause => exact ih _ world
      | ok result => exact ih _ _
  | log event next ih => exact ih _
  | print text next ih => exact ih _

/-- Two worlds with the same files and the same host. -/
structure Alike (world other : World) : Prop where
  files : other.files = world.files
  host : other.host = world.host

theorem Alike.change {world other : World} (alike : Alike world other)
    (result : Except SystemError FileSystem) :
    (other.change result).1 = (world.change result).1 ∧
      Alike (world.change result).2 (other.change result).2 := by
  cases result with
  | ok files => exact ⟨rfl, rfl, alike.host⟩
  | error cause => exact ⟨rfl, alike⟩

/-- What was logged, printed and run before makes no difference to a computation. -/
theorem Alike.perform {world other : World} (alike : Alike world other) (routine : Routine α) :
    (other.perform routine).1 = (world.perform routine).1 ∧
      Alike (world.perform routine).2 (other.perform routine).2 := by
  have changed {result otherResult : Except SystemError FileSystem} {world other : World}
      {next : Except SystemError Unit → Routine α} (alike : Alike world other)
      (same : otherResult = result)
      (ih : ∀ answer {world other : World}, Alike world other →
        (other.perform (next answer)).1 = (world.perform (next answer)).1 ∧
          Alike (world.perform (next answer)).2 (other.perform (next answer)).2) :
      ((other.change otherResult).2.perform (next (other.change otherResult).1)).1 =
          ((world.change result).2.perform (next (world.change result).1)).1 ∧
        Alike ((world.change result).2.perform (next (world.change result).1)).2
          ((other.change otherResult).2.perform (next (other.change otherResult).1)).2 := by
    subst same
    obtain ⟨answer, alike⟩ := alike.change otherResult
    rw [answer]
    exact ih _ alike
  induction routine generalizing world other with
  | done value => exact ⟨rfl, alike⟩
  | isPresent path next ih =>
      unfold World.perform
      rw [alike.files]
      exact ih _ alike
  | isDirectory path next ih =>
      unfold World.perform
      rw [alike.files]
      exact ih _ alike
  | read path next ih =>
      unfold World.perform
      rw [alike.files]
      exact ih _ alike
  | makeDirectory path next ih => exact changed alike (by rw [alike.files]) ih
  | write path content next ih => exact changed alike (by rw [alike.files]) ih
  | remove path next ih => exact changed alike (by rw [alike.files]) ih
  | link old new next ih => exact changed alike (by rw [alike.files]) ih
  | copy old new next ih => exact changed alike (by rw [alike.files]) ih
  | rename old new next ih => exact changed alike (by rw [alike.files]) ih
  | run program phase next ih =>
      rw [perform_run, perform_run, alike.files, alike.host]
      cases world.host world.files program phase with
      | error cause => exact ih _ alike
      | ok result => exact ih _ ⟨rfl, rfl⟩
  | log event next ih => exact ih ⟨alike.files, alike.host⟩
  | print text next ih => exact ih ⟨alike.files, alike.host⟩

end World

end NetplanEditor
