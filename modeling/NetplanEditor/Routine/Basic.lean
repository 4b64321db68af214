import NetplanEditor.FileSystem.Error
import NetplanEditor.Log
import NetplanEditor.Netplan.Phase

/-!
Computations that make system calls.

A `Routine α` is either finished with a value or a call together with what to do with its answer.
Nothing in it says how the calls are answered: a `World` answers them from a file system held as a
value, and a failing disk or an interruption is an answer, or the lack of one, at some call. Calls
happen in the order in which they stand, one at a time.
-/

namespace NetplanEditor

/-- What a program that ran to its end leaves behind. -/
structure ProcessResult where
  /-- The exit status, or nothing after death by a signal. -/
  status : Option Int
  /-- The bytes it wrote to its standard output. -/
  stdout : ByteArray
  /-- The bytes it wrote to its standard error. -/
  stderr : ByteArray

/-- A computation that makes system calls and ends with a value. -/
inductive Routine (α : Type)
  | done (value : α)
  | isPresent (path : String) (next : Bool → Routine α)
  /-- Ask whether a directory stands at a path. -/
  | isDirectory (path : String) (next : Bool → Routine α)
  | read (path : String) (next : Except SystemError ByteArray → Routine α)
  | makeDirectory (path : String) (next : Except SystemError Unit → Routine α)
  | write (path : String) (content : ByteArray) (next : Except SystemError Unit → Routine α)
  | remove (path : String) (next : Except SystemError Unit → Routine α)
  /-- Give the file at `old` the second name `new`. -/
  | link (old new : String) (next : Except SystemError Unit → Routine α)
  /-- Copy the content of the file at `old` to `new`. -/
  | copy (old new : String) (next : Except SystemError Unit → Routine α)
  | rename (old new : String) (next : Except SystemError Unit → Routine α)
  /-- Run a program with the argument of a phase. -/
  | run (program : String) (phase : Phase) (next : Except SystemError ProcessResult → Routine α)
  | log (event : LogEvent) (next : Routine α)
  | print (text : String) (next : Routine α)

namespace Routine

/-- Goes on with `next` where a computation is over. -/
def andThen {α β : Type} (next : α → Routine β) : Routine α → Routine β
  | done value => next value
  | isPresent path k => .isPresent path fun answer => andThen next (k answer)
  | isDirectory path k => .isDirectory path fun answer => andThen next (k answer)
  | read path k => .read path fun answer => andThen next (k answer)
  | makeDirectory path k => .makeDirectory path fun answer => andThen next (k answer)
  | write path content k => .write path content fun answer => andThen next (k answer)
  | remove path k => .remove path fun answer => andThen next (k answer)
  | link old new k => .link old new fun answer => andThen next (k answer)
  | copy old new k => .copy old new fun answer => andThen next (k answer)
  | rename old new k => .rename old new fun answer => andThen next (k answer)
  | run program phase k => .run program phase fun answer => andThen next (k answer)
  | log event k => .log event (andThen next k)
  | print text k => .print text (andThen next k)

instance : Monad Routine where
  pure := done
  bind first next := andThen next first

def logAll : List LogEvent → Routine Unit
  | [] => done ()
  | event :: events => .log event (logAll events)

instance : MonadLog Routine := ⟨logAll⟩

/-- The computation with only those of its events that are to be kept. -/
def filterLog {α : Type} (keep : LogEvent → Bool) : Routine α → Routine α
  | done value => .done value
  | isPresent path k => .isPresent path fun answer => filterLog keep (k answer)
  | isDirectory path k => .isDirectory path fun answer => filterLog keep (k answer)
  | read path k => .read path fun answer => filterLog keep (k answer)
  | makeDirectory path k => .makeDirectory path fun answer => filterLog keep (k answer)
  | write path content k => .write path content fun answer => filterLog keep (k answer)
  | remove path k => .remove path fun answer => filterLog keep (k answer)
  | link old new k => .link old new fun answer => filterLog keep (k answer)
  | copy old new k => .copy old new fun answer => filterLog keep (k answer)
  | rename old new k => .rename old new fun answer => filterLog keep (k answer)
  | run program phase k => .run program phase fun answer => filterLog keep (k answer)
  | log event k => if keep event then .log event (filterLog keep k) else filterLog keep k
  | print text k => .print text (filterLog keep k)

end Routine

end NetplanEditor
