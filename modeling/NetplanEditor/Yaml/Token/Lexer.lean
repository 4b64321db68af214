import NetplanEditor.Yaml.Token.Block
import NetplanEditor.Yaml.Token.Mark
import NetplanEditor.Yaml.Token.Plain
import NetplanEditor.Yaml.Token.Quoted

/-!
Cutting a text into tokens.

Two things make this more than a matter of characters. Indentation opens and closes block
collections: each one that is open has a *floor*, the least column at which its content can stand,
and a line that starts further left closes it. And a key without a question mark is recognised only
when its colon is met, so the lexer remembers for every flow collection, and for the block around
them, where the last thing began that can still turn out to be a key; the tokens for the key and for
the mapping that it opens are then put in front of it.

What has been read before a fault stays readable, up to the first thing that could still turn out to
be a key.
-/

namespace NetplanEditor.Yaml

/-- Something that turns out to be a key if a colon follows. -/
structure PendingKey where
  required : Bool
  position : Nat
  spot : Spot
  deriving DecidableEq, Repr

/-- A text of which a part has been cut into tokens. -/
structure Lexer where
  cursor : Cursor
  /-- What can be a key in the innermost flow collection, or in the block outside of all. -/
  pending : Option PendingKey := none
  /-- The same for the collections around it, innermost first. -/
  outer : List (Option PendingKey) := []
  /-- The floors of the open block collections, innermost first. -/
  floors : List Nat := []
  keyAllowed : Bool := true
  tokens : List Token := []
  count : Nat := 0

namespace Lexer

/-- The longest key without a question mark, in characters. -/
def maxKey : Nat := 1024

/-! ## Questions -/

def inFlow (lexer : Lexer) : Bool := !lexer.outer.isEmpty

def column (lexer : Lexer) : Nat := lexer.cursor.column

/-- The least column at which content of the innermost block collection stands. -/
def floor (lexer : Lexer) : Nat := lexer.floors.headD 0

/-! ## Small steps -/

def emit (lexer : Lexer) (token : Token) : Lexer :=
  { lexer with tokens := token :: lexer.tokens, count := lexer.count + 1 }

/-- Adds a token after the first `position` ones. -/
def emitAt (lexer : Lexer) (position : Nat) (token : Token) : Lexer :=
  let later := lexer.count - position
  { lexer with
    tokens := lexer.tokens.take later ++ token :: lexer.tokens.drop later
    count := lexer.count + 1 }

/-- Reads so many characters as a token. -/
def take (lexer : Lexer) (count : Nat) (token : Token) : Lexer :=
  { lexer.emit token with cursor := lexer.cursor.skip count }

/-- Says whether a key can start next. -/
def allowKey (lexer : Lexer) (allowed : Bool) : Lexer := { lexer with keyAllowed := allowed }

/-- Gives up on the pending key; one that is required is missing its colon. -/
def dropPending (lexer : Lexer) : Except Fault Lexer :=
  if lexer.pending.any (·.required) then .error .keyWithoutColon
  else .ok { lexer with pending := none }

/-- Remembers that what starts here can be a key, if one is allowed. -/
def savePending (lexer : Lexer) : Except Fault Lexer := do
  if !lexer.keyAllowed then return lexer
  let required := !lexer.inFlow && lexer.floor == lexer.column + 1
  let lexer ← lexer.dropPending
  return { lexer with pending := some ⟨required, lexer.count, lexer.cursor.spot⟩ }

/-- The pending key has been left behind: it started in an earlier line, or too far back. -/
def isStale (spot : Spot) (key : PendingKey) : Bool :=
  key.spot.line < spot.line || key.spot.index + maxKey < spot.index

/-- What remains of a pending key at the spot. -/
def expireKey (spot : Spot) : Option PendingKey → Except Fault (Option PendingKey)
  | none => .ok none
  | some key =>
    if isStale spot key then (if key.required then .error .keyWithoutColon else .ok none)
    else .ok (some key)

/-- Gives up on all pending keys that have been left behind. -/
def expire (lexer : Lexer) : Except Fault Lexer := do
  let outer ← lexer.outer.mapM (expireKey lexer.cursor.spot)
  let pending ← expireKey lexer.cursor.spot lexer.pending
  return { lexer with pending, outer }

/-- Opens a block collection at the column, if its content would stand at the floor or to the right
of it; `open'` adds the token. -/
def openBlock (lexer : Lexer) (column : Nat) (emitStart : Lexer → Lexer) : Lexer :=
  if !lexer.inFlow && lexer.floor ≤ column then
    { emitStart lexer with floors := (column + 1) :: lexer.floors }
  else lexer

/-- Closes the block collections whose floors, of those given, lie above the limit. -/
def closeFloors (limit : Nat) : List Nat → Lexer → Lexer
  | [], lexer => { lexer with floors := [] }
  | floor :: floors, lexer =>
    if limit < floor then closeFloors limit floors (lexer.emit .blockEnd)
    else { lexer with floors := floor :: floors }

/-- Closes the block collections that a line starting at the column does not belong to. -/
def closeBlocks (lexer : Lexer) (column : Nat) : Lexer :=
  if lexer.inFlow then lexer else closeFloors (column + 1) lexer.floors lexer

def closeAllBlocks (lexer : Lexer) : Lexer :=
  if lexer.inFlow then lexer else closeFloors 0 lexer.floors lexer

/-! ## Blanks, comments and line ends -/

/-- Goes to the next token. In block context a key can start after the end of a line, and then no
tab may stand before it; each round of `fuel` passes one line. -/
def skipLines : (fuel : Nat) → Lexer → Lexer
  | 0, lexer => lexer
  | fuel + 1, lexer =>
    let cursor := lexer.cursor
    let cursor :=
      if cursor.spot.index == 0 && cursor.head? == some '\uFEFF' then cursor.skip 1 else cursor
    let isPassed (c : Char) : Bool :=
      c == ' ' || (c == '\t' && (lexer.inFlow || !lexer.keyAllowed))
    let cursor := (cursor.skipWhile isPassed).skipComment
    match cursor.takeBreak? with
    | none => { lexer with cursor }
    | some (_, next) =>
      skipLines fuel { lexer with cursor := next, keyAllowed := lexer.keyAllowed || !lexer.inFlow }

/-! ## Tokens -/

def readEnd (lexer : Lexer) : Except Fault Lexer := do
  let lexer ← lexer.closeAllBlocks.dropPending
  return (lexer.allowKey false).emit .streamEnd

def readDirective (lexer : Lexer) : Except Fault Lexer := do
  let lexer ← lexer.closeAllBlocks.dropPending
  let (token, cursor) ← Mark.directive lexer.cursor
  return { (lexer.allowKey false).emit token with cursor }

/-- Reads the mark of a document's start or end. -/
def readDocumentMark (lexer : Lexer) (token : Token) : Except Fault Lexer := do
  let lexer ← lexer.closeAllBlocks.dropPending
  return (lexer.allowKey false).take 3 token

/-- Reads the start of a flow collection, which can be a key itself. -/
def readFlowStart (lexer : Lexer) (token : Token) : Except Fault Lexer := do
  let lexer ← lexer.savePending
  return { (lexer.allowKey true).take 1 token with
    pending := none, outer := lexer.pending :: lexer.outer }

/-- Reads the end of a flow collection. -/
def readFlowEnd (lexer : Lexer) (token : Token) : Except Fault Lexer := do
  let lexer ← lexer.dropPending
  let lexer :=
    match lexer.outer with
    | [] => lexer
    | pending :: outer => { lexer with pending, outer }
  return (lexer.allowKey false).take 1 token

/-- Reads the comma between the items of a flow collection. -/
def readFlowEntry (lexer : Lexer) : Except Fault Lexer := do
  let lexer ← lexer.dropPending
  return (lexer.allowKey true).take 1 .flowEntry

/-- In block context, opens a collection here if need be; an entry has to be allowed. -/
def openEntry (lexer : Lexer) (start : Token) : Except Fault Lexer :=
  if lexer.inFlow then .ok lexer
  else if lexer.keyAllowed then .ok (lexer.openBlock lexer.column (·.emit start))
  else .error .misplacedEntry

/-- Reads the hyphen in front of an item. -/
def readBlockEntry (lexer : Lexer) : Except Fault Lexer := do
  let lexer ← lexer.openEntry .blockSequenceStart
  let lexer ← lexer.dropPending
  return (lexer.allowKey true).take 1 .blockEntry

/-- Reads the question mark in front of a key. -/
def readKey (lexer : Lexer) : Except Fault Lexer := do
  let lexer ← lexer.openEntry .blockMappingStart
  let lexer ← lexer.dropPending
  return (lexer.allowKey !lexer.inFlow).take 1 .key

def readValue (lexer : Lexer) : Except Fault Lexer := do
  match lexer.pending with
  | some key =>
    let lexer := { lexer with pending := none }.emitAt key.position .key
    let lexer := lexer.openBlock key.spot.column (·.emitAt key.position .blockMappingStart)
    return (lexer.allowKey false).take 1 .value
  | none =>
    let lexer ← lexer.openEntry .blockMappingStart
    return (lexer.allowKey !lexer.inFlow).take 1 .value

/-- Reads an anchor or an alias, which can be a key. -/
def readName (lexer : Lexer) (token : String → Token) : Except Fault Lexer := do
  let lexer ← lexer.savePending
  let (name, cursor) ← Mark.name lexer.cursor
  return { (lexer.allowKey false).emit (token name) with cursor }

/-- Reads a tag, with which a key can start. -/
def readTag (lexer : Lexer) : Except Fault Lexer := do
  let lexer ← lexer.savePending
  let (token, cursor) ← Mark.tag lexer.inFlow lexer.cursor
  return { (lexer.allowKey false).emit token with cursor }

/-- Reads a block scalar, which is never a key. -/
def readBlockScalar (lexer : Lexer) (folded : Bool) : Except Fault Lexer := do
  let lexer ← lexer.dropPending
  let (text, cursor) ← Block.read folded lexer.floor lexer.cursor
  let form := if folded then ScalarForm.quoted else .literal
  return { (lexer.allowKey true).emit (.scalar form (String.ofList text)) with cursor }

/-- Reads a scalar between quotes, which can be a key. -/
def readQuoted (lexer : Lexer) (double : Bool) : Except Fault Lexer := do
  let lexer ← lexer.savePending
  let (text, cursor) ← Quoted.read double lexer.cursor
  return { (lexer.allowKey false).emit (.scalar .quoted (String.ofList text)) with cursor }

/-- Reads a plain scalar, which can be a key. -/
def readPlain (lexer : Lexer) : Except Fault Lexer := do
  let lexer ← lexer.savePending
  let scalar ← PlainScalar.read lexer.inFlow lexer.floor lexer.cursor
  return { (lexer.allowKey scalar.lineEnded).emit (.scalar .plain (String.ofList scalar.text)) with
    cursor := scalar.cursor }

/-- The characters that start something other than a plain scalar. -/
def isIndicator (c : Char) : Bool :=
  isFlowIndicator c || ['-', '?', ':', '#', '&', '*', '!', '|', '>', '\'', '"', '%', '@',
    '\x60'].contains c

/-- A plain scalar can start with the character, `cs` being what follows it. -/
def startsPlain (inFlow : Bool) (c : Char) (cs : List Char) : Bool :=
  (!isIndicator c && !isSpaceOrTab c && !isBreak c) ||
    (c == '-' && !cs.head?.any isSpaceOrTab) ||
    (!inFlow && (c == '?' || c == ':') && !separates cs)

/-- Reads the token that starts with the character, `cs` being what follows it. -/
def readToken (lexer : Lexer) (c : Char) (cs : List Char) : Except Fault Lexer :=
  let atColumnZero := lexer.column == 0
  if atColumnZero && c == '%' then lexer.readDirective
  else if lexer.cursor.atMark '-' then lexer.readDocumentMark .documentStart
  else if lexer.cursor.atMark '.' then lexer.readDocumentMark .documentEnd
  else if c == '[' then lexer.readFlowStart .flowSequenceStart
  else if c == '\x7b' then lexer.readFlowStart .flowMappingStart
  else if c == ']' then lexer.readFlowEnd .flowSequenceEnd
  else if c == '\x7d' then lexer.readFlowEnd .flowMappingEnd
  else if c == ',' then lexer.readFlowEntry
  else if c == '-' && separates cs then lexer.readBlockEntry
  else if c == '?' && (lexer.inFlow || separates cs) then lexer.readKey
  else if c == ':' && (lexer.inFlow || separates cs) then lexer.readValue
  else if c == '*' then lexer.readName .alias
  else if c == '&' then lexer.readName .anchor
  else if c == '!' then lexer.readTag
  else if c == '|' && !lexer.inFlow then lexer.readBlockScalar false
  else if c == '>' && !lexer.inFlow then lexer.readBlockScalar true
  else if c == '\'' then lexer.readQuoted false
  else if c == '"' then lexer.readQuoted true
  else if startsPlain lexer.inFlow c cs then lexer.readPlain
  else .error .unexpectedCharacter

/-- Reads the next token, and those for the collections that end before it. If the token turns out
at once to be a key without a colon, these are not read either. -/
def next (lexer : Lexer) : Except Fault Lexer := do
  let lexer ← (skipLines (lexer.cursor.rest.length + 1) lexer).expire
  let lexer := lexer.closeBlocks lexer.column
  let lexer ←
    match lexer.cursor.rest with
    | [] => lexer.readEnd
    | c :: cs => lexer.readToken c cs
  lexer.expire

/-! ## All tokens -/

/-- The tokens that no later character can put anything in front of: those before the first pending
key. -/
def settled (lexer : Lexer) : List Token :=
  let positions := (lexer.pending :: lexer.outer).filterMap fun key => key.map (·.position)
  lexer.tokens.reverse.take (positions.foldl min lexer.count)

/-- Reads tokens until the stream ends; each takes at least one character. -/
def run : (fuel : Nat) → Lexer → TokenStream
  | 0, lexer => ⟨lexer.tokens.reverse, none⟩
  | fuel + 1, lexer =>
    match lexer.next with
    | .error fault => ⟨lexer.settled, some fault⟩
    | .ok lexer =>
      match lexer.tokens with
      | .streamEnd :: _ => ⟨lexer.tokens.reverse, none⟩
      | _ => run fuel lexer

end Lexer

/-- The text after a byte order mark at its start. -/
def afterByteOrderMark : List Char → List Char
  | '\uFEFF' :: cs => cs
  | cs => cs

/-- The tokens of a text. A character that may not stand in a text is met before any token. -/
def TokenStream.ofText (text : String) : TokenStream :=
  let cs := afterByteOrderMark text.toList
  if cs.all isReadable then Lexer.run (cs.length + 1) { cursor := ⟨cs, {}⟩ }
  else ⟨[], some .unreadableCharacter⟩

end NetplanEditor.Yaml
