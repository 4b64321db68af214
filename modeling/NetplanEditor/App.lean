import NetplanEditor.Config.Basic
import NetplanEditor.Engine.Basic
import NetplanEditor.Netplan.Command
import NetplanEditor.Store.File

/-!
The program as a whole: from the words of its command line to its exit code.

A faulty invocation ends with 64 before anything is logged or done. An action that fails ends with
the exit code of the phase that failed, where a phase is what failed, and with 70 otherwise.
-/

namespace NetplanEditor

inductive Ending
  | refused (error : UsageError)
  | misconfigured (error : ConfigError)
  /-- The settings file to start from could not be written. -/
  | templateFailed (error : ConfigError)
  /-- The command line was carried out, with or without success. -/
  | finished (code : ExitCode)
  deriving DecidableEq, Repr

namespace UsageError

def exitCode : UsageError → ExitCode
  | helpRequested | versionRequested => 0
  | _ => 2

def message : UsageError → String
  | unknownOption => "error: unexpected argument"
  | unknownCommand => "error: unrecognized subcommand"
  | repeatedOption => "error: an option cannot be used multiple times"
  | invalidValue => "error: a value is missing or not possible"
  | switchWithValue => "error: a value is given where none is possible"
  | helpRequested => "Usage: netplan-cfg [OPTIONS] [COMMAND]"
  | versionRequested => "netplan-cfg"

end UsageError

namespace Ending

/-- The exit code after a faulty invocation. -/
def faultyInvocation : ExitCode := 64

/-- The exit code after a failure of the program itself. -/
def programFailed : ExitCode := 70

def code : Ending → ExitCode
  | refused error => error.exitCode
  | misconfigured _ | templateFailed _ => faultyInvocation
  | finished code => code

/-- What to do about a faulty invocation. -/
def hint : ConfigError → String
  | .missing .action | .missing .device => "\nRun 'netplan-cfg --help' for usage.\n"
  | .unreadable .. => "\nRun 'netplan-cfg init' to generate a configuration template.\n"
  | _ => ""

/-- What is written to the standard error output at the end. -/
def notice : Ending → String
  | refused error => error.message ++ "\n"
  | misconfigured error => s!"Configuration error: {error.message}\n" ++ hint error
  | templateFailed error => s!"Error: {error.message}\n"
  | finished _ => ""

end Ending

namespace App

/-! ## Before the run -/

/-- The settings of the file that the arguments name, if they name one. -/
def loadSettings : (path : Option String) → Routine (Except ConfigError Settings)
  | none => return .ok {}
  | some path =>
    .read path fun answer =>
      match answer with
      | .error cause => return .error (.unreadable path cause)
      | .ok content =>
        match String.fromUTF8? content with
        | none => return .error (.unreadable path .notText)
        | some text => return (Settings.parse text).mapError .invalidSettings

def loadConfig (arguments : Arguments) : Routine (Except ConfigError Config) := do
  match ← loadSettings arguments.config with
  | .error error => return .error error
  | .ok settings => return Config.resolve arguments settings

/-! ## The run -/

/-- The engine of a run: documents are files, and netplan is a program. -/
def engineFor (config : Config) : Engine Routine where
  store := FileStore.toStore ⟨config.configDir, config.filePrefix⟩
  reconciler := .ofProgram config.netplan
  dryRun := config.dryRun

/-- Shows the result of an action, and gives the exit code. -/
def conclude : Except ActionError Outcome → Routine ExitCode
  | .ok (.rendered text) => .print text (return 0)
  | .ok outcome => return outcome.exitCode
  | .error error => do
    MonadLog.logAll [.error error.message]
    return error.exitCode?.getD Ending.programFailed

/-- Details are logged only if the run asks for them. -/
def isShown (verbose : Bool) (event : LogEvent) : Bool := verbose || event.level != .debug

def perform (config : Config) : Routine ExitCode :=
  Routine.filterLog (isShown config.verbose) do
    MonadLog.logAll [.debug config.describe]
    let result ← (engineFor config).perform config.interface config.action
    conclude result

/-! ## The program -/

/-- Writes the settings file to start from. -/
def writeTemplate (output : String) : Routine Ending :=
  .write output Settings.template.toUTF8 fun answer =>
    match answer with
    | .error cause => return .templateFailed (.notWritten output cause)
    | .ok () => .print s!"Configuration template written to: {output}\n" (return .finished 0)

/-- Carries out what a command line asks for. -/
def invoke : Invocation → Routine Ending
  | .init output => writeTemplate output
  | .run arguments => do
    match ← loadConfig arguments with
    | .error error => return .misconfigured error
    | .ok config => return .finished (← perform config)

/-- The program, given the words of its command line without its name. -/
def run (words : List String) : Routine Ending :=
  match CommandLine.parse words with
  | .error error => return .refused error
  | .ok invocation => invoke invocation

end App

end NetplanEditor
