import NetplanEditor.Yaml.Character
import NetplanEditor.Yaml.Plain

/-!
How a text is written as a scalar, and the written form itself.

The plain style is taken where it reads back as the same text. A text that reads as something else,
or would break the line it stands in, is put between single quotes; one with characters that no
other style can show is escaped between double quotes; and a text with line feeds becomes a literal
block, whose lines stand indented below the line it starts in.
-/

namespace NetplanEditor.Yaml

inductive Style
  | plain
  | singleQuoted
  | doubleQuoted
  | literal
  deriving DecidableEq, Repr

namespace Style

/-! ## What a text holds -/

/-- The characters that no plain text starts with. -/
def isLeadIndicator (c : Char) : Bool :=
  ['#', ',', '[', ']', '\x7b', '\x7d', '&', '*', '!', '|', '>', '\'', '"', '%', '@', '\x60'].contains c

/-- The text starts like something other than a plain scalar. -/
def leadIndicates : List Char → Bool
  | '-' :: '-' :: '-' :: _ | '.' :: '.' :: '.' :: _ => true
  | c :: cs => isLeadIndicator c || ((c == '-' || c == '?' || c == ':') && separates cs)
  | [] => false

/-- After its first character the text holds a colon before a separator, or a number sign after
one; `afterSpace` says whether the character before separates. -/
def innerIndicates (afterSpace : Bool) : List Char → Bool
  | [] => false
  | c :: cs =>
    (c == ':' && separates cs) || (c == '#' && afterSpace) ||
      innerIndicates (isSpaceOrTab c || isBreak c) cs

/-- The text cannot be plain because it would be read as something other than one scalar. -/
def indicates (cs : List Char) : Bool :=
  leadIndicates cs ||
    match cs with
    | [] => false
    | c :: rest => innerIndicates (isSpaceOrTab c || isBreak c) rest

/-- Two neighbours in the text satisfy the two properties. -/
def hasNeighbours (first second : Char → Bool) : List Char → Bool
  | a :: b :: cs => (first a && second b) || hasNeighbours first second (b :: cs)
  | _ => false

/-- The text starts or ends with a space or the end of a line. -/
def hasEdgeSpace (cs : List Char) : Bool :=
  let isEdge (c : Char) := c == ' ' || isBreak c
  cs.head?.any isEdge || cs.getLast?.any isEdge

/-- Only the double quotes can show the text: it holds a character that is not printable, or a
space at the end of a line. -/
def needsEscapes (cs : List Char) : Bool :=
  cs.any (!isPrintable ·) || hasNeighbours (· == ' ') isBreak cs

/-- The text holds the end of a line. -/
def isMultiline (cs : List Char) : Bool := cs.any isBreak

def plainAllowed (cs : List Char) : Bool :=
  !hasEdgeSpace cs && !needsEscapes cs && !isMultiline cs && !indicates cs

/-- Single quotes show the text. A space at the start of a line would be lost between them. -/
def singleQuotesAllowed (cs : List Char) : Bool :=
  !needsEscapes cs && !hasNeighbours isBreak (· == ' ') cs

def literalAllowed (cs : List Char) : Bool :=
  !needsEscapes cs && cs.getLast? != some ' '

/-- As a plain scalar the text would be read as something other than a text, or it looks so much
like a number that it is quoted all the same. -/
def isAmbiguous (cs : List Char) : Bool := Plain.meaning cs != .text || Plain.isZeroLed cs

/-- The style in which a text is written. -/
def ofText (cs : List Char) : Style :=
  if cs.contains '\n' then
    if literalAllowed cs then .literal else .doubleQuoted
  else if !isAmbiguous cs && plainAllowed cs then .plain
  else if singleQuotesAllowed cs then .singleQuoted
  else .doubleQuoted

/-! ## Written forms -/

def pad (n : Nat) : List Char := List.replicate n ' '

/-- The text between single quotes, where a quote is written twice. After the end of a line the
text goes on at the column `indent`. -/
def quoteSingle (indent : Nat) (cs : List Char) : List Char :=
  '\'' :: go false cs
where
  /-- The rest of the text, and the closing quote. -/
  go (afterBreak : Bool) : List Char → List Char
    | [] => (if afterBreak then pad indent else []) ++ ['\'']
    | c :: cs =>
      if c == ' ' then c :: go afterBreak cs
      else if isBreak c then c :: go true cs
      else
        (if afterBreak then pad indent else []) ++
          (if c == '\'' then ['\'', '\''] else [c]) ++ go false cs

def hexDigit (n : Nat) : Char :=
  if n < 10 then Char.ofNat (48 + n) else Char.ofNat (55 + n)

/-- The lowest `width` hexadecimal digits of a number. -/
def hexDigits : (width : Nat) → Nat → List Char
  | 0, _ => []
  | width + 1, n => hexDigits width (n / 16) ++ [hexDigit (n % 16)]

/-- The letter that stands for a character after a backslash. -/
def escapeLetter? (c : Char) : Option Char :=
  match c.toNat with
  | 0x00 => some '0'
  | 0x07 => some 'a'
  | 0x08 => some 'b'
  | 0x09 => some 't'
  | 0x0A => some 'n'
  | 0x0B => some 'v'
  | 0x0C => some 'f'
  | 0x0D => some 'r'
  | 0x1B => some 'e'
  | 0x22 => some '"'
  | 0x5C => some '\\'
  | 0x85 => some 'N'
  | 0x2028 => some 'L'
  | 0x2029 => some 'P'
  | _ => none

/-- A character that is written as an escape. -/
def escape (c : Char) : List Char :=
  match escapeLetter? c with
  | some letter => ['\\', letter]
  | none =>
    let n := c.toNat
    if n ≤ 0xFF then '\\' :: 'x' :: hexDigits 2 n
    else if n ≤ 0xFFFF then '\\' :: 'u' :: hexDigits 4 n
    else '\\' :: 'U' :: hexDigits 8 n

/-- The character stands for itself between double quotes. -/
def needsNoEscape (c : Char) : Bool :=
  isPrintable c && !isBreak c && c != '"' && c != '\\'

def quoteDouble (cs : List Char) : List Char :=
  '"' :: cs.flatMap (fun c => if needsNoEscape c then [c] else escape c) ++ ['"']

/-- What follows the bar of a literal block: the indentation where the text does not show it, and
how the line feeds at its end are to be kept. -/
def literalHints (cs : List Char) : List Char :=
  let starts := cs.head?.any fun c => c == ' ' || isBreak c
  let chomp :=
    match cs.reverse with
    | [] => ['-']
    | c :: before =>
      if !isBreak c then ['-']
      else
        match before with
        | [] => ['+']
        | b :: _ => if isBreak b then ['+'] else []
  (if starts then ['2'] else []) ++ chomp

/-- The lines of a literal block, those with something in them at the column `indent`. The last one
ends its line. -/
def literalLines (indent : Nat) : (atStart : Bool) → List Char → List Char
  | atStart, [] => if atStart then [] else ['\n']
  | atStart, c :: cs =>
    if isBreak c then c :: literalLines indent true cs
    else (if atStart then pad indent else []) ++ c :: literalLines indent false cs

/-- A literal block up to the end of its last line. -/
def literalBlock (indent : Nat) (cs : List Char) : List Char :=
  '|' :: literalHints cs ++ '\n' :: literalLines indent true cs

/-- A text as a scalar, up to the end of its last line. -/
def writeLine (indent : Nat) (cs : List Char) : List Char :=
  match ofText cs with
  | .plain => cs ++ ['\n']
  | .singleQuoted => quoteSingle indent cs ++ ['\n']
  | .doubleQuoted => quoteDouble cs ++ ['\n']
  | .literal => literalBlock indent cs

/-- A text as the key of an entry, which has to fit in its line. -/
def writeKey (cs : List Char) : List Char :=
  match ofText cs with
  | .plain => cs
  | .singleQuoted => quoteSingle 0 cs
  | .doubleQuoted | .literal => quoteDouble cs

end Style

end NetplanEditor.Yaml
