import NetplanEditor.Toml.Read

/-!
The settings file: where the documents and the netplan program are, and whether to log details.

The file has two sections, `netplan` and `log`. A section can be given under a header, by keys with
points in them, or as one value, but only in one of these ways; as a value it can be a table or a
list of its settings in their order. Whatever is no setting is an error.
-/

namespace NetplanEditor

/-- The settings of a file; a setting that is not given is absent. -/
structure Settings where
  configDir : Option String := none
  /-- What the names of the documents start with. -/
  filePrefix : Option String := none
  command : Option String := none
  verbose : Bool := false
  deriving DecidableEq, Repr

/-- Why a text is no settings file. -/
inductive SettingsFault
  | malformed
  /-- It says something that is no setting, or says a thing twice. -/
  | notASetting
  deriving DecidableEq, Repr

def SettingsFault.message : SettingsFault → String
  | malformed => "the file is not well-formed"
  | notASetting => "an entry is not a setting, or is given twice"

namespace Settings

open Toml (Value Line)

inductive Section
  | netplan
  | log
  deriving DecidableEq, Repr

def Section.ofName? (name : String) : Option Section :=
  match name with
  | "netplan" => some .netplan
  | "log" => some .log
  | _ => none

/-- In which way a section has been given so far. -/
inductive Given
  | not
  /-- By keys with points in them; more of them can follow. -/
  | byPaths
  | whole
  deriving DecidableEq, Repr

structure Draft where
  configDir : Option String := none
  filePrefix : Option String := none
  command : Option String := none
  verbose : Option Bool := none
  given : Section → Given := fun _ => .not
  current : Option Section := none

namespace Draft

/-- The draft after a section has been given in some way. -/
def mark (draft : Draft) (part : Section) (given : Given) : Draft :=
  { draft with given := fun other => if other = part then given else draft.given other }

/-- A text for a setting that has not been given. -/
def once (seen : Option String) (value : Value) : Option (Option String) :=
  match seen, value with
  | none, .text text => some (some text)
  | _, _ => none

def assign (draft : Draft) (part : Section) (key : String) (value : Value) : Option Draft :=
  match part, key with
  | .netplan, "config_dir" =>
    (once draft.configDir value).map ({ draft with configDir := · })
  | .netplan, "file_prefix" =>
    (once draft.filePrefix value).map ({ draft with filePrefix := · })
  | .netplan, "command" => (once draft.command value).map ({ draft with command := · })
  | .log, "verbose" =>
    match draft.verbose, value with
    | none, .flag flag => some { draft with verbose := some flag }
    | _, _ => none
  | _, _ => none

/-- Gives the settings of a table their values. -/
def assignTable (draft : Draft) (part : Section) : List (List String × Value) → Option Draft
  | [] => some draft
  | ([key], value) :: entries =>
    (draft.assign part key value).bind fun draft => draft.assignTable part entries
  | _ => none

/-- Gives a whole section as a value. In a list the places take the part of the keys; what stands
behind the last of them is not looked at. -/
def assignWhole (draft : Draft) (part : Section) (value : Value) : Option Draft :=
  match part, value with
  | part, .table entries => draft.assignTable part entries
  | .netplan, .array (.text configDir :: .text filePrefix :: .text command :: _) =>
    some { draft with
      configDir := some configDir, filePrefix := some filePrefix, command := some command }
  | .log, .array [] => some draft
  | .log, .array (.flag verbose :: _) => some { draft with verbose := some verbose }
  | _, _ => none

/-- Takes up a key outside of the sections. -/
def stepRoot (draft : Draft) (path : List String) (value : Value) : Option Draft :=
  match path with
  | [name] =>
    (Section.ofName? name).bind fun part =>
      if draft.given part = .not then (draft.mark part .whole).assignWhole part value else none
  | [name, key] =>
    (Section.ofName? name).bind fun part =>
      if draft.given part = .whole then none
      else (draft.mark part .byPaths).assign part key value
  | _ => none

def step (draft : Draft) (line : Line) : Option Draft :=
  match line, draft.current with
  | .header [name], _ =>
    (Section.ofName? name).bind fun part =>
      if draft.given part = .not then
        some { draft.mark part .whole with current := some part }
      else none
  | .entry path value, none => draft.stepRoot path value
  | .entry [key] value, some part => draft.assign part key value
  | _, _ => none

/-- Takes up the lines one after the other. -/
def steps (draft : Draft) : List Line → Option Draft
  | [] => some draft
  | line :: lines => (draft.step line).bind fun draft => draft.steps lines

end Draft

def parse (text : String) : Except SettingsFault Settings :=
  match Toml.lines? text with
  | none => .error .malformed
  | some lines =>
    match ({} : Draft).steps lines with
    | none => .error .notASetting
    | some draft =>
      .ok {
        configDir := draft.configDir
        filePrefix := draft.filePrefix
        command := draft.command
        verbose := draft.verbose.getD false }

/-- The settings file to start from: every setting is explained and commented out. -/
def template : String :=
"# netplan-cfg configuration file
# Command-line flags override every value below.

[netplan]
# Directory holding netplan documents (default: /etc/netplan)
# config_dir = \"/etc/netplan\"

# File name prefix of managed documents (default: 90-vz-)
# The document for eth0 is <config_dir>/<file_prefix>eth0.yaml
# file_prefix = \"90-vz-\"

# Netplan executable (default: netplan, looked up in PATH)
# command = \"/usr/sbin/netplan\"

[log]
# Enable debug logging, including netplan output (same as --verbose)
# verbose = false
"

end Settings

end NetplanEditor
