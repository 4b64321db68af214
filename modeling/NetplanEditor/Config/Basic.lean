import NetplanEditor.CommandLine.Basic
import NetplanEditor.Config.Settings
import NetplanEditor.FileSystem.Error

/-!
One run, fully determined: the action with its payload, the interface, and where the documents and
the netplan program are.

What the command line says comes before what the settings file says, and that comes before what is
built in; details are logged if either asks for it. The checks come in a fixed order, and the first
that fails is the one reported.
-/

namespace NetplanEditor

inductive RequiredArgument
  | action
  | device
  | ip
  | proto
  deriving DecidableEq, Repr

namespace RequiredArgument

def name : RequiredArgument → String
  | action => "action"
  | device => "device"
  | ip => "ip"
  | proto => "proto"

def hint : RequiredArgument → String
  | action =>
    "Use -a/--action with one of " ++ ", ".intercalate (ActionKind.all.map ActionKind.name)
  | device => "Use -d/--device"
  | ip => "Use -i/--ip"
  | proto => "Use -p/--proto"

end RequiredArgument

/-- Why a text cannot be the name of an interface and a part of a file name. -/
inductive NameFault
  | empty
  /-- It stands for a directory relative to another. -/
  | relative
  | tooLong
  /-- It holds a slash, a blank or a NUL. -/
  | forbiddenCharacter
  deriving DecidableEq, Repr

/-- The most bytes in the name of an interface. -/
def maxInterfaceName : Nat := 15

def NameFault.reason : NameFault → String
  | empty => "must not be empty"
  | relative => "must not be a relative path component"
  | tooLong => s!"must be at most {Text.decimal maxInterfaceName} bytes"
  | forbiddenCharacter => "must not contain '/', whitespace or NUL"

/-- Why there is no run to be made. -/
inductive ConfigError
  | unreadable (path : String) (cause : SystemError)
  | invalidSettings (fault : SettingsFault)
  | notWritten (path : String) (cause : SystemError)
  | missing (argument : RequiredArgument)
  | invalidInterface (name : String) (fault : NameFault)
  | invalidProto (value : String)
  | invalidPrefix (value : String)
  deriving DecidableEq, Repr

def ConfigError.message : ConfigError → String
  | unreadable path cause => s!"Failed to read config file '{path}': {cause.message}"
  | invalidSettings fault => s!"Failed to parse TOML config: {fault.message}"
  | notWritten path cause => s!"Failed to write config file '{path}': {cause.message}"
  | missing argument => s!"Missing required argument: {argument.name}. {argument.hint}"
  | invalidInterface name fault => s!"Invalid interface name '{name}': {fault.reason}"
  | invalidProto value => s!"Invalid protocol '{value}': expected 4 or 6"
  | invalidPrefix value => s!"Invalid file prefix '{value}': must not contain '/'"

structure Config where
  interface : String
  action : Action
  configDir : String
  /-- What the names of the documents start with. -/
  filePrefix : String
  netplan : String
  /-- Show the document instead of saving it and putting it into effect. -/
  dryRun : Bool
  verbose : Bool
  deriving DecidableEq, Repr

namespace Config

/-! ## What is built in -/

def defaultDir : String := "/etc/netplan"

/-- What the names of the documents start with: late in the order in which netplan merges them. -/
def defaultPrefix : String := "90-vz-"

/-- The netplan program, looked for in the search path. -/
def defaultNetplan : String := "netplan"

def defaultProto : String := "4"

/-! ## Parts of a run -/

/-- What is wrong with the name of an interface. -/
def nameFault? (name : String) : Option NameFault :=
  if name.isEmpty then some .empty
  else if name = "." ∨ name = ".." then some .relative
  else if maxInterfaceName < name.utf8ByteSize then some .tooLong
  else if name.toList.any fun c => c == '/' || isBlank c || c == '\x00' then
    some .forbiddenCharacter
  else none

/-- An argument that has to be given. -/
def demand {α : Type} (argument : RequiredArgument) (given : Option α) : Except ConfigError α :=
  match given with
  | some value => .ok value
  | none => .error (.missing argument)

def interfaceOf (arguments : Arguments) : Except ConfigError String := do
  let name ← demand .device arguments.device
  match nameFault? name with
  | some fault => throw (.invalidInterface name fault)
  | none => return name

/-- The action of the run with its payload. -/
def actionOf (arguments : Arguments) (kind : ActionKind) : Except ConfigError Action := do
  match kind with
  | .getDhcp =>
    let proto := arguments.proto.getD defaultProto
    match Family.ofSelector? proto with
    | some family => return .getDhcp family
    | none => throw (.invalidProto proto)
  | .restart => return .restart
  | .setDhcp => return .change (.setDhcp (← demand .proto arguments.proto))
  | .setGateway => return .change (.setGateway (Text.words (← demand .ip arguments.ip)))
  | .setIp =>
    return .change (.setIp (Text.words (← demand .ip arguments.ip)) (Text.words arguments.options))
  | .setRoute => return .change (.setRoute (Text.trim (← demand .ip arguments.ip)))

/-- What the names of the documents start with in the run. -/
def prefixOf (arguments : Arguments) (settings : Settings) : Except ConfigError String :=
  let chosen := (arguments.filePrefix <|> settings.filePrefix).getD defaultPrefix
  if Text.hasChar '/' chosen then .error (.invalidPrefix chosen) else .ok chosen

/-- The run that the arguments and the settings determine. -/
def resolve (arguments : Arguments) (settings : Settings) : Except ConfigError Config := do
  let kind ← demand .action arguments.action
  let interface ← interfaceOf arguments
  let action ← actionOf arguments kind
  let filePrefix ← prefixOf arguments settings
  return {
    interface
    action
    configDir := (arguments.configDir <|> settings.configDir).getD defaultDir
    filePrefix
    netplan := (arguments.netplan <|> settings.command).getD defaultNetplan
    dryRun := arguments.dryRun
    verbose := arguments.verbose || settings.verbose }

/-- The run as the log shows it. -/
def describe (config : Config) : String :=
  "Config \x7b action: " ++ config.action.name ++ ", interface: " ++ config.interface ++
    ", config_dir: " ++ config.configDir ++ ", file_prefix: " ++ config.filePrefix ++
    ", netplan: " ++ config.netplan ++ ", dry_run: " ++ toString config.dryRun ++ " \x7d"

end Config

end NetplanEditor
