import NetplanEditor.FileSystem.Calls
import NetplanEditor.Routine.Basic

/-!
A world in which every system call is answered: the files of a file system held as a value, and a
host that runs programs. The world keeps what the outside sees of a computation: the files as they
are afterwards, the programs that ran, the log, and the standard output.
-/

namespace NetplanEditor

/-- How a host behaves when a program is to be run with the argument of a phase, given the files as
they are at that moment. -/
abbrev Host := FileSystem → String → Phase → Except SystemError ProcessResult

/-- The state of the world around a computation. -/
structure World where
  files : FileSystem
  host : Host
  /-- The phases that a program was run with, oldest first. -/
  calls : List Phase := []
  events : List LogEvent := []
  printed : String := ""

namespace World

/-- The answer to a call that changes files, and the world afterwards. -/
def change (world : World) (result : Except SystemError FileSystem) :
    Except SystemError Unit × World :=
  match result with
  | .ok files => (.ok (), { world with files })
  | .error error => (.error error, world)

/-- Carries out a computation, answering each of its calls. -/
def perform {α : Type} (world : World) : Routine α → α × World
  | .done value => (value, world)
  | .isPresent path next => world.perform (next (world.files.isPresent path))
  | .isDirectory path next => world.perform (next (world.files.isDirectory path))
  | .read path next => world.perform (next (world.files.read path))
  | .makeDirectory path next =>
    let (answer, world) := world.change (world.files.makeDirectory path)
    world.perform (next answer)
  | .write path content next =>
    let (answer, world) := world.change (world.files.write path content)
    world.perform (next answer)
  | .remove path next =>
    let (answer, world) := world.change (world.files.remove path)
    world.perform (next answer)
  | .link old new next =>
    let (answer, world) := world.change (world.files.link old new)
    world.perform (next answer)
  | .copy old new next =>
    let (answer, world) := world.change (world.files.copy old new)
    world.perform (next answer)
  | .rename old new next =>
    let (answer, world) := world.change (world.files.rename old new)
    world.perform (next answer)
  | .run program phase next =>
    match world.host world.files program phase with
    | .error error => world.perform (next (.error error))
    | .ok result =>
      { world with calls := world.calls ++ [phase] }.perform (next (.ok result))
  | .log event next => { world with events := world.events ++ [event] }.perform next
  | .print text next => { world with printed := world.printed ++ text }.perform next

/-- A host that finds programs among the files: a name with a slash is a path, and any other is
looked for in the directories of the search path. What is found has to be executable and then
behaves as `behaviour` says. -/
def hostWith (searchPath : List String) (behaviour : Phase → ProcessResult) : Host :=
  fun files program phase =>
    let found :=
      if program.toList.contains '\x00' then .error .nulInProgram
      else if program.isEmpty then .error (.numbered .noEntry)
      else if program.toList.contains '/' then files.checkExecutable program
      else search files program (.error (.numbered .noEntry)) searchPath
    found.map fun () => behaviour phase
where
  /-- Tries the directories in order. Only a refusal of access is remembered while the search goes
  on. -/
  search (files : FileSystem) (program : String) (outcome : Except SystemError Unit) :
      List String → Except SystemError Unit
    | [] => outcome
    | dir :: dirs =>
      match files.checkExecutable (Path.join dir program) with
      | .ok () => .ok ()
      | .error (.numbered .accessDenied) =>
        search files program (.error (.numbered .accessDenied)) dirs
      | .error _ => search files program outcome dirs

end World

end NetplanEditor
