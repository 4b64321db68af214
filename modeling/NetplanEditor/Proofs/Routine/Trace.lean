import NetplanEditor.Proofs.Routine.Permits

/-!
# What was asked and answered

`Ends` says how a run ends. `Traced` says by which calls it came there: its trace lists every call
that was made together with the answer to it, and says nothing of the log and the standard output.
The same failures are allowed for as in `Step`, and a run has a trace whenever it has an end
(`ends_iff_traced`). A trace is taken apart where the computation is put together: that of
`first >>= go` is the trace of `first` followed by that of what goes on (`Traced.of_bind`).
-/

namespace NetplanEditor

/-- A call with what it answered. -/
inductive Exchange
  | isPresent (path : String) (answer : Bool)
  | isDirectory (path : String) (answer : Bool)
  | read (path : String) (answer : Except SystemError ByteArray)
  | makeDirectory (path : String) (answer : Except SystemError Unit)
  | write (path : String) (content : ByteArray) (answer : Except SystemError Unit)
  | remove (path : String) (answer : Except SystemError Unit)
  | link (old new : String) (answer : Except SystemError Unit)
  | copy (old new : String) (answer : Except SystemError Unit)
  | rename (old new : String) (answer : Except SystemError Unit)
  | run (program : String) (phase : Phase) (answer : Except SystemError ProcessResult)

namespace Exchange

/-- The phase that a program was run with to its end. -/
def ran? : Exchange → Option Phase
  | run _ phase answer => if answer.isOk then some phase else none
  | _ => none

/-- Nothing was run, nor tried to. -/
def IsQuiet (exchange : Exchange) : Prop :=
  ∀ program phase answer, exchange ≠ .run program phase answer

end Exchange

namespace Routine

open FileSystem (Atomic Told Given)

variable {α β : Type}

/-- The computation can make the calls of the trace, end with the value and leave the files like
this. -/
inductive Traced (reliable : Bool) :
    FileSystem → Routine α → List Exchange → α → FileSystem → Prop
  | done {fs value} : Traced reliable fs (.done value) [] value fs
  | isPresent {fs path next answer trace value last} : Told reliable (fs.isPresent path) answer →
    Traced reliable fs (next answer) trace value last →
    Traced reliable fs (.isPresent path next) (.isPresent path answer :: trace) value last
  | isDirectory {fs path next answer trace value last} :
    Told reliable (fs.isDirectory path) answer →
    Traced reliable fs (next answer) trace value last →
    Traced reliable fs (.isDirectory path next) (.isDirectory path answer :: trace) value last
  | read {fs path next answer trace value last} : Given (fs.read path) answer →
    Traced reliable fs (next answer) trace value last →
    Traced reliable fs (.read path next) (.read path answer :: trace) value last
  | makeDirectory {fs path next answer after trace value last} :
    Atomic fs (fs.makeDirectory path) answer after →
    Traced reliable after (next answer) trace value last →
    Traced reliable fs (.makeDirectory path next) (.makeDirectory path answer :: trace) value last
  | write {fs path content next answer after trace value last} :
    FileSystem.Ending fs (fs.write path content) (fs.WritesPart path content) answer after →
    Traced reliable after (next answer) trace value last →
    Traced reliable fs (.write path content next) (.write path content answer :: trace) value last
  | remove {fs path next answer after trace value last} : Atomic fs (fs.remove path) answer after →
    Traced reliable after (next answer) trace value last →
    Traced reliable fs (.remove path next) (.remove path answer :: trace) value last
  | link {fs old new next answer after trace value last} :
    Atomic fs (fs.link old new) answer after →
    Traced reliable after (next answer) trace value last →
    Traced reliable fs (.link old new next) (.link old new answer :: trace) value last
  | copy {fs old new next answer after trace value last} :
    FileSystem.Ending fs (fs.copy old new) (fs.CopiesPart old new) answer after →
    Traced reliable after (next answer) trace value last →
    Traced reliable fs (.copy old new next) (.copy old new answer :: trace) value last
  | rename {fs old new next answer after trace value last} :
    Atomic fs (fs.rename old new) answer after →
    Traced reliable after (next answer) trace value last →
    Traced reliable fs (.rename old new next) (.rename old new answer :: trace) value last
  | run {fs program phase next answer trace value last} :
    Traced reliable fs (next answer) trace value last →
    Traced reliable fs (.run program phase next) (.run program phase answer :: trace) value last
  | log {fs event next trace value last} : Traced reliable fs next trace value last →
    Traced reliable fs (.log event next) trace value last
  | print {fs text next trace value last} : Traced reliable fs next trace value last →
    Traced reliable fs (.print text next) trace value last

variable {reliable renamed renamed' : Bool} {fs after last : FileSystem} {routine next : Routine α}
  {trace : List Exchange} {value : α}

/-! ## Traces and runs -/

theorem Traced.reach (traced : Traced reliable fs routine trace value last) (renamed : Bool) :
    ∃ renamed', Reach reliable renamed fs routine renamed' last (.done value) := by
  induction traced generalizing renamed with
  | done => exact ⟨renamed, .refl⟩
  | isPresent told _ ih => exact (ih renamed).imp fun _ => .step (.isPresent told)
  | isDirectory told _ ih => exact (ih renamed).imp fun _ => .step (.isDirectory told)
  | read given _ ih => exact (ih renamed).imp fun _ => .step (.read given)
  | makeDirectory ending _ ih => exact (ih renamed).imp fun _ => .step (.makeDirectory ending)
  | write ending _ ih => exact (ih renamed).imp fun _ => .step (.write ending)
  | remove ending _ ih => exact (ih renamed).imp fun _ => .step (.remove ending)
  | link ending _ ih => exact (ih renamed).imp fun _ => .step (.link ending)
  | copy ending _ ih => exact (ih renamed).imp fun _ => .step (.copy ending)
  | rename ending _ ih => exact (ih _).imp fun _ => .step (.rename ending)
  | run _ ih => exact (ih renamed).imp fun _ => .step .run
  | log _ ih => exact (ih renamed).imp fun _ => .step .log
  | print _ ih => exact (ih renamed).imp fun _ => .step .print

/-- A step comes before the trace of the rest of a run. -/
theorem Step.traced (step : Step reliable renamed fs routine renamed' after next)
    (rest : Traced reliable after next trace value last) :
    ∃ made, Traced reliable fs routine (made ++ trace) value last := by
  cases step with
  | isPresent told => exact ⟨[_], .isPresent told rest⟩
  | isDirectory told => exact ⟨[_], .isDirectory told rest⟩
  | read given => exact ⟨[_], .read given rest⟩
  | makeDirectory ending => exact ⟨[_], .makeDirectory ending rest⟩
  | write ending => exact ⟨[_], .write ending rest⟩
  | remove ending => exact ⟨[_], .remove ending rest⟩
  | link ending => exact ⟨[_], .link ending rest⟩
  | copy ending => exact ⟨[_], .copy ending rest⟩
  | rename ending => exact ⟨[_], .rename ending rest⟩
  | run => exact ⟨[_], .run rest⟩
  | log => exact ⟨[], .log rest⟩
  | print => exact ⟨[], .print rest⟩

/-- A run that comes to an end has made some calls. -/
theorem ends_iff_traced : Ends reliable fs routine value last ↔
    ∃ trace, Traced reliable fs routine trace value last := by
  refine ⟨?_, fun ⟨trace, traced⟩ => traced.reach false⟩
  rintro ⟨renamed, reach⟩
  generalize false = before at reach
  generalize ended : Routine.done value = rest at reach
  induction reach with
  | refl =>
      subst ended
      exact ⟨[], .done⟩
  | step step _ ih =>
      obtain ⟨trace, traced⟩ := ih ended
      obtain ⟨made, whole⟩ := step.traced traced
      exact ⟨_, whole⟩

theorem Traced.ends (traced : Traced reliable fs routine trace value last) :
    Ends reliable fs routine value last :=
  ends_iff_traced.mpr ⟨trace, traced⟩

namespace Traced

/-! ## Computations put together -/

/-- The trace begins with that of a first computation, and goes on with that of the next. -/
def Splits (reliable : Bool) (fs : FileSystem) (first : Routine α) (go : α → Routine β)
    (trace : List Exchange) (value : β) (last : FileSystem) : Prop :=
  ∃ middle between early late, trace = early ++ late ∧
    Traced reliable fs first early middle between ∧
    Traced reliable between (go middle) late value last

/-- What comes before the trace of a first computation comes before the whole. -/
theorem Splits.before {go : α → Routine β} {value : β} (made : List Exchange)
    (rest : Splits reliable after next go trace value last)
    (first : ∀ {early middle between}, Traced reliable after next early middle between →
      Traced reliable fs routine (made ++ early) middle between) :
    Splits reliable fs routine go (made ++ trace) value last := by
  obtain ⟨middle, between, early, late, rfl, ran, goesOn⟩ := rest
  exact ⟨middle, between, made ++ early, late, (List.append_assoc ..).symm, first ran, goesOn⟩

/-- The trace of two computations in a row is that of the first and then that of the next. -/
theorem of_bind {go : α → Routine β} {value : β}
    (traced : Traced reliable fs (routine >>= go) trace value last) :
    Splits reliable fs routine go trace value last := by
  change Traced reliable fs (andThen go routine) trace value last at traced
  induction routine generalizing fs trace with
  | done middle => exact ⟨middle, fs, [], trace, rfl, .done, traced⟩
  | isPresent path next ih =>
      cases traced with
      | isPresent told rest => exact (ih _ rest).before [_] (.isPresent told)
  | isDirectory path next ih =>
      cases traced with
      | isDirectory told rest => exact (ih _ rest).before [_] (.isDirectory told)
  | read path next ih =>
      cases traced with
      | read given rest => exact (ih _ rest).before [_] (.read given)
  | makeDirectory path next ih =>
      cases traced with
      | makeDirectory ending rest => exact (ih _ rest).before [_] (.makeDirectory ending)
  | write path content next ih =>
      cases traced with
      | write ending rest => exact (ih _ rest).before [_] (.write ending)
  | remove path next ih =>
      cases traced with
      | remove ending rest => exact (ih _ rest).before [_] (.remove ending)
  | link old new next ih =>
      cases traced with
      | link ending rest => exact (ih _ rest).before [_] (.link ending)
  | copy old new next ih =>
      cases traced with
      | copy ending rest => exact (ih _ rest).before [_] (.copy ending)
  | rename old new next ih =>
      cases traced with
      | rename ending rest => exact (ih _ rest).before [_] (.rename ending)
  | run program phase next ih =>
      cases traced with
      | run rest => exact (ih _ rest).before [_] .run
  | log event next ih =>
      cases traced with
      | log rest => exact (ih rest).before [] .log
  | print text next ih =>
      cases traced with
      | print rest => exact (ih rest).before [] .print

/-- Logging leaves no trace. -/
theorem of_logAll {events : List LogEvent} {value : Unit}
    (traced : Traced reliable fs (logAll events) trace value last) : trace = [] ∧ last = fs := by
  induction events with
  | nil =>
      cases traced
      exact ⟨rfl, rfl⟩
  | cons event events ih =>
      cases traced with
      | log rest => exact ih rest

theorem of_logged {events : List LogEvent}
    (traced : Traced reliable fs (do MonadLog.logAll events; next) trace value last) :
    Traced reliable fs next trace value last := by
  obtain ⟨_, between, early, late, rfl, logged, rest⟩ := traced.of_bind
  obtain ⟨rfl, rfl⟩ := of_logAll logged
  exact rest

theorem of_shared {logged : Logged β} {go : β → Routine α}
    (traced : Traced reliable fs (logged.share >>= go) trace value last) :
    Traced reliable fs (go logged.value) trace value last := by
  obtain ⟨middle, between, early, late, rfl, shared, rest⟩ := traced.of_bind
  cases of_logged shared
  exact rest

/-- Events that are left out make no difference. -/
theorem of_filterLog {keep : LogEvent → Bool}
    (traced : Traced reliable fs (routine.filterLog keep) trace value last) :
    Traced reliable fs routine trace value last := by
  induction routine generalizing fs trace with
  | done middle => exact traced
  | isPresent path next ih =>
      cases traced with
      | isPresent told rest => exact .isPresent told (ih _ rest)
  | isDirectory path next ih =>
      cases traced with
      | isDirectory told rest => exact .isDirectory told (ih _ rest)
  | read path next ih =>
      cases traced with
      | read given rest => exact .read given (ih _ rest)
  | makeDirectory path next ih =>
      cases traced with
      | makeDirectory ending rest => exact .makeDirectory ending (ih _ rest)
  | write path content next ih =>
      cases traced with
      | write ending rest => exact .write ending (ih _ rest)
  | remove path next ih =>
      cases traced with
      | remove ending rest => exact .remove ending (ih _ rest)
  | link old new next ih =>
      cases traced with
      | link ending rest => exact .link ending (ih _ rest)
  | copy old new next ih =>
      cases traced with
      | copy ending rest => exact .copy ending (ih _ rest)
  | rename old new next ih =>
      cases traced with
      | rename ending rest => exact .rename ending (ih _ rest)
  | run program phase next ih =>
      cases traced with
      | run rest => exact .run (ih _ rest)
  | log event next ih =>
      unfold Routine.filterLog at traced
      split at traced
      · cases traced with
        | log rest => exact .log (ih rest)
      · exact .log (ih traced)
  | print text next ih =>
      cases traced with
      | print rest => exact .print (ih rest)

/-! ## What is permitted -/

variable {permit : Permit} {post : α → Prop}

/-- A computation that may not change files has left them as they were. -/
theorem fixed (traced : Traced reliable fs routine trace value last)
    (gives : Gives permit post routine) (still : permit.changes = false) : last = fs := by
  obtain ⟨_, reach⟩ := traced.reach false
  exact (gives.reach still reach).1

/-- A computation ends as it says, and its trace shows that it has run no programs if it may not. -/
theorem gives (traced : Traced reliable fs routine trace value last)
    (gives : Gives permit post routine) :
    post value ∧ (permit.runs = false → ∀ exchange ∈ trace, exchange.IsQuiet) := by
  have before {exchange : Exchange} {trace : List Exchange} {value : α}
      (quiet : exchange.IsQuiet)
      (rest : post value ∧ (permit.runs = false → ∀ exchange ∈ trace, exchange.IsQuiet)) :
      post value ∧ (permit.runs = false → ∀ other ∈ exchange :: trace, other.IsQuiet) :=
    ⟨rest.1, fun still => List.forall_mem_cons.mpr ⟨quiet, rest.2 still⟩⟩
  induction gives generalizing fs trace with
  | done ends =>
      cases traced
      exact ⟨ends, fun _ _ none => (List.not_mem_nil none).elim⟩
  | isPresent _ ih =>
      cases traced with
      | isPresent _ rest => exact before nofun (ih _ rest)
  | isDirectory _ ih =>
      cases traced with
      | isDirectory _ rest => exact before nofun (ih _ rest)
  | read _ ih =>
      cases traced with
      | read _ rest => exact before nofun (ih _ rest)
  | makeDirectory _ _ ih =>
      cases traced with
      | makeDirectory _ rest => exact before nofun (ih _ rest)
  | write _ _ ih =>
      cases traced with
      | write _ rest => exact before nofun (ih _ rest)
  | remove _ _ ih =>
      cases traced with
      | remove _ rest => exact before nofun (ih _ rest)
  | link _ _ ih =>
      cases traced with
      | link _ rest => exact before nofun (ih _ rest)
  | copy _ _ ih =>
      cases traced with
      | copy _ rest => exact before nofun (ih _ rest)
  | rename _ _ ih =>
      cases traced with
      | rename _ rest => exact before nofun (ih _ rest)
  | run allowed _ ih =>
      cases traced with
      | run rest => exact ⟨(ih _ rest).1, fun still => by cases still.symm.trans allowed⟩
  | log _ ih =>
      cases traced with
      | log rest => exact ih rest
  | print _ ih =>
      cases traced with
      | print rest => exact ih rest

end Traced

end Routine

/-! ## Runs without failures -/

namespace World

open Routine (Traced)

variable {α : Type}

/-- The programs that a trace shows were run by the host of a world. -/
def Hosts (world : World) (trace : List Exchange) : Prop :=
  ∀ program phase answer, .run program phase answer ∈ trace →
    ∃ files, answer = world.host files program phase

theorem Hosts.cons {world : World} {trace : List Exchange} {exchange : Exchange}
    (rest : world.Hosts trace)
    (first : ∀ program phase answer, exchange = .run program phase answer →
      ∃ files, answer = world.host files program phase) : world.Hosts (exchange :: trace) := by
  intro program phase answer member
  rcases List.mem_cons.mp member with same | later
  · exact first program phase answer same.symm
  · exact rest program phase answer later

/-- A computation in a world has a trace, which shows what the host has run. -/
theorem perform_traced (world : World) (routine : Routine α) :
    ∃ trace, Traced true world.files routine trace (world.perform routine).1
        (world.perform routine).2.files ∧
      (world.perform routine).2.calls = world.calls ++ trace.filterMap Exchange.ran? ∧
      world.Hosts trace := by
  have changed (next : Except SystemError Unit → Routine α)
      (ih : ∀ answer (world : World), ∃ trace,
        Traced true world.files (next answer) trace (world.perform (next answer)).1
            (world.perform (next answer)).2.files ∧
          (world.perform (next answer)).2.calls =
            world.calls ++ trace.filterMap Exchange.ran? ∧ world.Hosts trace)
      (world : World) (result : Except SystemError FileSystem) :
      ∃ trace, Traced true (world.change result).2.files (next (world.change result).1) trace
          ((world.change result).2.perform (next (world.change result).1)).1
          ((world.change result).2.perform (next (world.change result).1)).2.files ∧
        ((world.change result).2.perform (next (world.change result).1)).2.calls =
          world.calls ++ trace.filterMap Exchange.ran? ∧ world.Hosts trace := by
    cases result with
    | ok files => exact ih _ { world with files }
    | error cause => exact ih _ world
  induction routine generalizing world with
  | done value => exact ⟨[], .done, (List.append_nil _).symm, nofun⟩
  | isPresent path next ih =>
      obtain ⟨trace, traced, calls, hosts⟩ := ih _ world
      exact ⟨_, .isPresent (Or.inl rfl) traced, calls, hosts.cons nofun⟩
  | isDirectory path next ih =>
      obtain ⟨trace, traced, calls, hosts⟩ := ih _ world
      exact ⟨_, .isDirectory (Or.inl rfl) traced, calls, hosts.cons nofun⟩
  | read path next ih =>
      obtain ⟨trace, traced, calls, hosts⟩ := ih _ world
      exact ⟨_, .read (Or.inl rfl) traced, calls, hosts.cons nofun⟩
  | makeDirectory path next ih =>
      obtain ⟨trace, traced, calls, hosts⟩ := changed next ih world _
      exact ⟨_, .makeDirectory (world.change_ending _ _) traced, calls, hosts.cons nofun⟩
  | write path content next ih =>
      obtain ⟨trace, traced, calls, hosts⟩ := changed next ih world _
      exact ⟨_, .write (world.change_ending _ _) traced, calls, hosts.cons nofun⟩
  | remove path next ih =>
      obtain ⟨trace, traced, calls, hosts⟩ := changed next ih world _
      exact ⟨_, .remove (world.change_ending _ _) traced, calls, hosts.cons nofun⟩
  | link old new next ih =>
      obtain ⟨trace, traced, calls, hosts⟩ := changed next ih world _
      exact ⟨_, .link (world.change_ending _ _) traced, calls, hosts.cons nofun⟩
  | copy old new next ih =>
      obtain ⟨trace, traced, calls, hosts⟩ := changed next ih world _
      exact ⟨_, .copy (world.change_ending _ _) traced, calls, hosts.cons nofun⟩
  | rename old new next ih =>
      obtain ⟨trace, traced, calls, hosts⟩ := changed next ih world _
      exact ⟨_, .rename (world.change_ending _ _) traced, calls, hosts.cons nofun⟩
  | run program phase next ih =>
      rw [perform_run]
      cases answers : world.host world.files program phase with
      | error cause =>
          obtain ⟨trace, traced, calls, hosts⟩ := ih (.error cause) world
          refine ⟨_, .run traced, calls, hosts.cons ?_⟩
          rintro _ _ _ ⟨⟩
          exact ⟨world.files, answers.symm⟩
      | ok result =>
          obtain ⟨trace, traced, calls, hosts⟩ :=
            ih (.ok result) { world with calls := world.calls ++ [phase] }
          refine ⟨_, .run traced, calls.trans (List.append_assoc ..), Hosts.cons hosts ?_⟩
          rintro _ _ _ ⟨⟩
          exact ⟨world.files, answers.symm⟩
  | log event next ih =>
      obtain ⟨trace, traced, rest⟩ := ih { world with events := world.events ++ [event] }
      exact ⟨trace, .log traced, rest⟩
  | print text next ih =>
      obtain ⟨trace, traced, rest⟩ := ih { world with printed := world.printed ++ text }
      exact ⟨trace, .print traced, rest⟩

end World

end NetplanEditor
