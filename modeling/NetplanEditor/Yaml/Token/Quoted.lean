import NetplanEditor.Text.Numeral
import NetplanEditor.Yaml.Token.Folding

/-!
Reading a scalar between quotes.

Between single quotes only the quote itself is special: written twice, it stands for itself. Between
double quotes a backslash starts an escape, and one at the end of a line joins the next line without
a space. No mark of a document may stand within quotes.
-/

namespace NetplanEditor.Yaml.Quoted

/-! ## Escapes -/

/-- The character that a letter after a backslash stands for. -/
def named? (letter : Char) : Option Char :=
  match letter with
  | '0' => some '\x00'
  | 'a' => some '\x07'
  | 'b' => some '\x08'
  | 't' | '\t' => some '\t'
  | 'n' => some '\n'
  | 'v' => some '\x0b'
  | 'f' => some '\x0c'
  | 'r' => some '\r'
  | 'e' => some '\x1b'
  | ' ' => some ' '
  | '"' => some '"'
  | '/' => some '/'
  | '\\' => some '\\'
  | 'N' => some '\u0085'
  | '_' => some '\u00a0'
  | 'L' => some '\u2028'
  | 'P' => some '\u2029'
  | _ => none

/-- The number of hexadecimal digits that a letter after a backslash asks for. -/
def digitCount? (letter : Char) : Option Nat :=
  match letter with
  | 'x' => some 2
  | 'u' => some 4
  | 'U' => some 8
  | _ => none

/-- The character with the code, if there is one. -/
def charOfCode? (code : Nat) : Option Char :=
  if code.isValidChar then some (Char.ofNat code) else none

/-- The character that the escape stands for whose text after the backslash starts here, and the
number of characters of that text. -/
def escape? : List Char → Option (Char × Nat)
  | [] => none
  | letter :: cs =>
    match digitCount? letter with
    | some count =>
      if cs.length < count then none
      else
        ((Text.readDigits 16 (cs.take count)).bind charOfCode?).map fun c => (c, count + 1)
    | none => (named? letter).map fun c => (c, 1)

/-! ## Pieces between blanks -/

/-- The text up to the next blank, end of a line or closing quote, and the number of characters it
is written with. -/
def singleRun : List Char → List Char × Nat
  | '\'' :: '\'' :: cs => let (text, count) := singleRun cs; ('\'' :: text, count + 2)
  | c :: cs =>
    if c == '\'' || isSpaceOrTab c || isBreak c then ([], 0)
    else let (text, count) := singleRun cs; (c :: text, count + 1)
  | [] => ([], 0)

/-- The text up to the next blank, end of a line, escaped end of a line or closing quote, and the
number of characters it is written with; the first `skip` characters belong to an escape. -/
def doubleRun : (skip : Nat) → List Char → Except Fault (List Char × Nat)
  | _, [] => .ok ([], 0)
  | skip + 1, _ :: cs => (doubleRun skip cs).map fun (text, count) => (text, count + 1)
  | 0, c :: cs =>
    if c == '"' || isSpaceOrTab c || isBreak c then .ok ([], 0)
    else if c == '\\' then
      if cs.head?.any isBreak then .ok ([], 0)
      else
        match escape? cs with
        | none => .error .malformedEscape
        | some (d, width) =>
          (doubleRun width cs).map fun (text, count) => (d :: text, count + 1)
    else (doubleRun 0 cs).map fun (text, count) => (c :: text, count + 1)

/-- The next piece of the text between the quotes, and the number of characters it is written
with. -/
def run (double : Bool) (cs : List Char) : Except Fault (List Char × Nat) :=
  if double then doubleRun 0 cs else .ok (singleRun cs)

/-! ## The scalar -/

/-- The cursor behind an escaped end of a line, if one stands here. -/
def escapedBreak? (double : Bool) (cursor : Cursor) : Option Cursor :=
  if double && cursor.head? == some '\\' then some (cursor.skip 1).skipBreak else none

/-- The quote that opens and closes the scalar. -/
def quoteOf (double : Bool) : Char := if double then '"' else '\''

/-- Reads up to the closing quote, and gives the cursor behind it. -/
def lines (double : Bool) : (fuel : Nat) → Cursor → Except Fault (List Char × Cursor)
  | 0, _ => .error .unclosedQuote
  | fuel + 1, cursor => do
    if cursor.atAnyMark || cursor.rest.isEmpty then throw .unclosedQuote
    let (piece, count) ← run double cursor.rest
    let cursor := cursor.skip count
    let (gap, cursor) : Gap × Cursor :=
      match escapedBreak? double cursor with
      | some next => ({ broken := true }, next)
      | none => ({}, cursor)
    if cursor.head? = some (quoteOf double) then return (piece, cursor.skip 1)
    let (gap, cursor) ← gap.read 0 cursor.rest cursor.spot
    let (more, cursor) ← lines double fuel cursor
    return (piece ++ gap.text ++ more, cursor)

/-- Reads the scalar whose opening quote stands here, and gives the cursor behind it. -/
def read (double : Bool) (cursor : Cursor) : Except Fault (List Char × Cursor) :=
  lines double (cursor.rest.length + 1) (cursor.skip 1)

end NetplanEditor.Yaml.Quoted
