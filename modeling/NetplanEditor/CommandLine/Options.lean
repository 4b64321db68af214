/-!
Reading the options of a command line.

An option has a long name, a short one or both. It is a switch or takes one value: the rest of the
word after an equals sign, what stands behind a short name in the same word, or the next word. Each
option can be given once. A value in a word of its own may start with a hyphen only where the option
allows it, and is looked at only when the next option is met or the line ends; so a later fault can
be the one that is reported.
-/

namespace NetplanEditor

/-- Why a command line is not carried out. Two of the reasons are requests. -/
inductive UsageError
  | unknownOption
  | unknownCommand
  | repeatedOption
  /-- A value is missing, or is none of those that are possible. -/
  | invalidValue
  | switchWithValue
  | helpRequested
  | versionRequested
  deriving DecidableEq, Repr

namespace CommandLine

inductive Role
  | help
  | version
  | switch
  /-- It takes a value, which has to be accepted. -/
  | value (hyphenAllowed : Bool) (accepts : String → Bool)

/-- The options of a command and its subcommands. -/
structure Grammar (α : Type) where
  long? : String → Option α
  short? : Char → Option α
  role : α → Role
  isCommand : String → Bool
  strayWord : UsageError

/-- The part of a command line that has been read. -/
structure Reading (α : Type) where
  /-- The options given so far, with their values. -/
  given : List (α × String) := []
  /-- The option read last, if it takes its value from a word of its own, with the value if that
  has been read. -/
  pending : Option (α × Option String) := none
  /-- Two hyphens have been read: no word after them is an option. -/
  wordsOnly : Bool := false

/-- A word taken apart by its first characters. -/
inductive Word
  | separator
  /-- Two hyphens, a name, and a value if an equals sign follows. -/
  | long (name : String) (value : Option String)
  /-- A hyphen and at least one more character. -/
  | short (cluster : List Char)
  | plain
  deriving DecidableEq, Repr

/-- What stands before the first equals sign, and what stands after it if there is one. -/
def cutAtEquals : List Char → List Char × Option (List Char)
  | [] => ([], none)
  | '=' :: cs => ([], some cs)
  | c :: cs => let (before, after) := cutAtEquals cs; (c :: before, after)

def Word.ofString (word : String) : Word :=
  match word.toList with
  | ['-', '-'] => .separator
  | '-' :: '-' :: cs =>
    let (name, value) := cutAtEquals cs
    .long (String.ofList name) (value.map String.ofList)
  | '-' :: c :: cs => .short (c :: cs)
  | _ => .plain

namespace Reading

variable {α : Type} [DecidableEq α]

/-- Takes up an option with its value. -/
def record (grammar : Grammar α) (reading : Reading α) (option : α) (value : String) :
    Except UsageError (Reading α) :=
  if reading.given.any (·.1 = option) then .error .repeatedOption
  else
    let isAccepted :=
      match grammar.role option with
      | .value _ accepts => accepts value
      | .help | .version | .switch => true
    if isAccepted then .ok { reading with given := reading.given ++ [(option, value)] }
    else .error .invalidValue

/-- Takes up the pending option, whose value has to have been read. -/
def settle (grammar : Grammar α) (reading : Reading α) : Except UsageError (Reading α) :=
  match reading.pending with
  | none => .ok reading
  | some (_, none) => .error .invalidValue
  | some (option, some value) => record grammar { reading with pending := none } option value

/-- The option whose value the next word can be. -/
def awaiting? (reading : Reading α) : Option α :=
  match reading.pending with
  | some (option, none) => some option
  | _ => none

/-- The next word is a value, whatever it starts with. -/
def awaitsAnything (grammar : Grammar α) (reading : Reading α) : Bool :=
  reading.awaiting?.any fun option =>
    match grammar.role option with
    | .value hyphenAllowed _ => hyphenAllowed
    | .help | .version | .switch => false

/-- Takes a word as the value of the pending option. -/
def supply (reading : Reading α) (option : α) (value : String) : Reading α :=
  { reading with pending := some (option, some value) }

/-- Takes up an option without a value in the same word. -/
def takeBare (grammar : Grammar α) (reading : Reading α) (option : α) :
    Except UsageError (Reading α) := do
  let reading ← reading.settle grammar
  match grammar.role option with
  | .help => throw .helpRequested
  | .version => throw .versionRequested
  | .switch => reading.record grammar option ""
  | .value .. => return { reading with pending := some (option, none) }

/-- Takes up an option with a value in the same word. -/
def takeAttached (grammar : Grammar α) (reading : Reading α) (option : α) (value : String) :
    Except UsageError (Reading α) :=
  match grammar.role option with
  | .help | .version | .switch => .error .switchWithValue
  | .value .. => do
    let reading ← reading.settle grammar
    reading.record grammar option value

/-- Takes up an option by its long name. -/
def takeLong (grammar : Grammar α) (reading : Reading α) (name : String) (value : Option String) :
    Except UsageError (Reading α) :=
  match grammar.long? name, value with
  | none, _ => .error .unknownOption
  | some option, none => reading.takeBare grammar option
  | some option, some value => reading.takeAttached grammar option value

/-- Takes up options by their short names, one after the other; the first that takes a value takes
the rest of the word, without an equals sign at its start. -/
def takeShort (grammar : Grammar α) (reading : Reading α) :
    List Char → Except UsageError (Reading α)
  | [] => .ok reading
  | c :: cs =>
    match grammar.short? c with
    | none => .error .unknownOption
    | some option =>
      match grammar.role option, cs with
      | .value .., '=' :: value => reading.takeAttached grammar option (String.ofList value)
      | .value .., d :: ds => reading.takeAttached grammar option (String.ofList (d :: ds))
      | _, _ => do
        let reading ← reading.takeBare grammar option
        takeShort grammar reading cs

/-- Takes up a word that is no subcommand. -/
def takeWord (grammar : Grammar α) (reading : Reading α) (word : String) :
    Except UsageError (Reading α) :=
  match reading.awaiting?, reading.awaitsAnything grammar, Word.ofString word with
  | some option, true, _ => .ok (reading.supply option word)
  | _, _, .separator => .ok { reading with wordsOnly := true }
  | _, _, .long name value => reading.takeLong grammar name value
  | _, _, .short cluster => reading.takeShort grammar cluster
  | some option, _, .plain => .ok (reading.supply option word)
  | none, _, .plain => .error grammar.strayWord

/-- Reads words up to the first subcommand, and gives that with the words behind it. -/
def words (grammar : Grammar α) (reading : Reading α) :
    List String → Except UsageError (Reading α × Option (String × List String))
  | [] => .ok (reading, none)
  | word :: rest =>
    if reading.wordsOnly then
      .error (if grammar.isCommand word then .unknownOption else grammar.strayWord)
    else if reading.awaiting?.isNone && grammar.isCommand word then
      .ok (reading, some (word, rest))
    else do
      let reading ← reading.takeWord grammar word
      words grammar reading rest

/-- The value that an option was given. -/
def value? (reading : Reading α) (option : α) : Option String := reading.given.lookup option

def has (reading : Reading α) (option : α) : Bool := (reading.value? option).isSome

end Reading

end CommandLine

end NetplanEditor
