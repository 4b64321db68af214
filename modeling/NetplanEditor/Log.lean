/-!
What the program reports while it works.

Reports are values: a computation that has something to say returns its report beside its result,
as a `Logged`, and whoever runs it decides where the report goes.
-/

namespace NetplanEditor

inductive Level
  | debug
  | info
  | warn
  | error
  deriving DecidableEq, Repr

/-- The level as log lines name it. -/
def Level.name : Level → String
  | debug => "DEBUG"
  | info => "INFO"
  | warn => "WARN"
  | error => "ERROR"

structure LogEvent where
  level : Level
  text : String
  deriving DecidableEq, Repr

namespace LogEvent

def debug (text : String) : LogEvent := ⟨.debug, text⟩

def info (text : String) : LogEvent := ⟨.info, text⟩

/-- Something unexpected that does not stop the work. -/
def warn (text : String) : LogEvent := ⟨.warn, text⟩

def error (text : String) : LogEvent := ⟨.error, text⟩

/-! ### Written form -/

/-- The lower-case hexadecimal digits of a number. -/
def hexDigits (n : Nat) : List Char := Nat.toDigits 16 n

/-- A character as the log shows it: those that would control a terminal are spelled out. -/
def showChar (c : Char) : List Char :=
  let n := c.toNat
  if n == 0x1B || n == 0x7F then '\\' :: 'x' :: hexDigits n
  else if n == 0x07 || n == 0x08 || n == 0x0C then '\\' :: 'x' :: '0' :: hexDigits n
  else if 0x80 ≤ n && n ≤ 0x9F then '\\' :: 'u' :: '\x7b' :: hexDigits n ++ ['\x7d']
  else [c]

/-- The event as the log shows it, possibly in several lines. -/
def line (event : LogEvent) : String :=
  event.level.name ++ " " ++ String.ofList (event.text.toList.flatMap showChar)

end LogEvent

/-- A result together with the events logged on the way to it, oldest first. -/
structure Logged (α : Type) where
  value : α
  log : List LogEvent := []
  deriving DecidableEq, Repr

namespace Logged

def tell (event : LogEvent) : Logged Unit := ⟨(), [event]⟩

instance : Monad Logged where
  pure value := ⟨value, []⟩
  bind first next := let second := next first.value; ⟨second.value, first.log ++ second.log⟩

@[simp] theorem value_pure {α : Type} (a : α) : (pure a : Logged α).value = a := rfl

@[simp] theorem log_pure {α : Type} (a : α) : (pure a : Logged α).log = [] := rfl

@[simp] theorem value_bind {α β : Type} (first : Logged α) (next : α → Logged β) :
    (first >>= next).value = (next first.value).value := rfl

@[simp] theorem log_bind {α β : Type} (first : Logged α) (next : α → Logged β) :
    (first >>= next).log = first.log ++ (next first.value).log := rfl

end Logged

class MonadLog (m : Type → Type) where
  logAll : List LogEvent → m Unit

instance : MonadLog Logged := ⟨fun events => ⟨(), events⟩⟩

/-- Logs what a result comes with, and goes on with the result. -/
def Logged.share {m : Type → Type} [Monad m] [MonadLog m] {α : Type} (logged : Logged α) : m α := do
  MonadLog.logAll logged.log
  return logged.value

end NetplanEditor
