import NetplanEditor.Action
import NetplanEditor.CommandLine.Options

/-!
The command line of the program: options for one run, or the subcommand that writes a settings file.
-/

namespace NetplanEditor

/-- What the options ask for in a run. -/
structure Arguments where
  action : Option ActionKind := none
  device : Option String := none
  ip : Option String := none
  /-- A selector of a family, or digits of families. -/
  proto : Option String := none
  /-- The options of an address, with blanks between them. -/
  options : String := ""
  config : Option String := none
  configDir : Option String := none
  filePrefix : Option String := none
  netplan : Option String := none
  dryRun : Bool := false
  verbose : Bool := false
  deriving DecidableEq, Repr

inductive Invocation
  | run (arguments : Arguments)
  | init (output : String)
  deriving DecidableEq, Repr

namespace CommandLine

/-! ## The options of a run -/

inductive RunOption
  | action
  | device
  | ip
  | proto
  | options
  | config
  | configDir
  | filePrefix
  | netplan
  | dryRun
  | verbose
  | help
  | version
  deriving DecidableEq, Repr

/-- A value that is a path is not empty. -/
def isPath (value : String) : Bool := !value.isEmpty

/-- The subcommand that writes a settings file. -/
def initCommand : String := "init"

/-- The subcommand that asks for the usage. -/
def helpCommand : String := "help"

def isCommand (word : String) : Bool := word == initCommand || word == helpCommand

/-- The options of a run and the subcommands. -/
def runGrammar : Grammar RunOption where
  long? name :=
    match name with
    | "action" => some .action
    | "device" => some .device
    | "ip" => some .ip
    | "proto" => some .proto
    | "options" => some .options
    | "config" => some .config
    | "config-dir" => some .configDir
    | "prefix" => some .filePrefix
    | "netplan" => some .netplan
    | "dry-run" => some .dryRun
    | "verbose" => some .verbose
    | "help" => some .help
    | "version" => some .version
    | _ => none
  short? c :=
    match c with
    | 'a' => some .action
    | 'd' => some .device
    | 'i' => some .ip
    | 'p' => some .proto
    | 'o' => some .options
    | 'c' => some .config
    | 'v' => some .verbose
    | 'h' => some .help
    | 'V' => some .version
    | _ => none
  role option :=
    match option with
    | .action => .value false fun value => (ActionKind.ofName? value).isSome
    | .device | .proto | .filePrefix => .value false fun _ => true
    | .ip | .options => .value true fun _ => true
    | .config | .configDir | .netplan => .value false isPath
    | .dryRun | .verbose => .switch
    | .help => .help
    | .version => .version
  isCommand := isCommand
  strayWord := .unknownCommand

/-- The arguments that the options of a run give. -/
def argumentsOf (reading : Reading RunOption) : Arguments where
  action := (reading.value? .action).bind ActionKind.ofName?
  device := reading.value? .device
  ip := reading.value? .ip
  proto := reading.value? .proto
  options := (reading.value? .options).getD ""
  config := reading.value? .config
  configDir := reading.value? .configDir
  filePrefix := reading.value? .filePrefix
  netplan := reading.value? .netplan
  dryRun := reading.has .dryRun
  verbose := reading.has .verbose

/-! ## The options of `init` -/

/-- The options of the subcommand that writes a settings file. -/
inductive InitOption
  | output
  | help
  deriving DecidableEq, Repr

/-- Where the settings file is written unless another place is given. -/
def defaultOutput : String := "netplan-cfg.toml"

/-- The options of the subcommand that writes a settings file. It takes no words. -/
def initGrammar : Grammar InitOption where
  long? name :=
    match name with
    | "output" => some .output
    | "help" => some .help
    | _ => none
  short? c :=
    match c with
    | 'o' => some .output
    | 'h' => some .help
    | _ => none
  role option :=
    match option with
    | .output => .value false isPath
    | .help => .help
  isCommand := fun _ => false
  strayWord := .unknownOption

/-- Reads the words behind the subcommand that writes a settings file. -/
def readInit (words : List String) : Except UsageError Invocation := do
  let (reading, _) ← Reading.words initGrammar {} words
  let reading ← reading.settle initGrammar
  return .init ((reading.value? .output).getD defaultOutput)

/-- Reads the words behind the subcommand that asks for the usage: at most one, a subcommand. -/
def readHelp (words : List String) : UsageError :=
  match words with
  | [] => .helpRequested
  | [word] => if isCommand word then .helpRequested else .unknownCommand
  | _ => .unknownCommand

/-! ## The command line -/

/-- What a command line asks for; the name of the program is not part of it. -/
def parse (words : List String) : Except UsageError Invocation := do
  let (reading, command) ← Reading.words runGrammar {} words
  match command with
  | some (word, rest) =>
    if word = helpCommand then throw (readHelp rest)
    let invocation ← readInit rest
    let _ ← reading.settle runGrammar
    return invocation
  | none =>
    let reading ← reading.settle runGrammar
    return .run (argumentsOf reading)

end CommandLine

end NetplanEditor
