import NetplanEditor.Text.Numeral

/-!
Texts and keys of a settings file.

A text stands between double quotes, where a backslash starts an escape, or between single quotes,
where nothing is special. Between three quotes it can go on over several lines; a line feed directly
after them is dropped, and up to two quotes can stand directly before the closing ones. A key is a
path of names, each a word or a text.
-/

namespace NetplanEditor.Toml

def isBlank (c : Char) : Bool := c == ' ' || c == '\t'

/-- The characters that can stand in a text or a comment as they are. -/
def isPlainChar (c : Char) : Bool := c == '\t' || (' ' ≤ c && c != '\x7f')

def skipBlanks (cs : List Char) : List Char := cs.dropWhile isBlank

/-- The text after the end of a line. -/
def afterBreak? : List Char → Option (List Char)
  | '\n' :: cs => some cs
  | '\r' :: '\n' :: cs => some cs
  | _ => none

/-! ## Escapes -/

/-- The character that a letter after a backslash stands for. -/
def named? (letter : Char) : Option Char :=
  match letter with
  | 'b' => some '\x08'
  | 't' => some '\t'
  | 'n' => some '\n'
  | 'f' => some '\x0c'
  | 'r' => some '\r'
  | 'e' => some '\x1b'
  | '"' => some '"'
  | '\\' => some '\\'
  | _ => none

/-- The number of hexadecimal digits that a letter after a backslash asks for. -/
def digitCount? (letter : Char) : Option Nat :=
  match letter with
  | 'x' => some 2
  | 'u' => some 4
  | 'U' => some 8
  | _ => none

/-- The character that the escape stands for whose text after the backslash starts here, and the
number of characters of that text. -/
def escape? : List Char → Option (Char × Nat)
  | [] => none
  | letter :: cs =>
    match digitCount? letter with
    | some count =>
      if cs.length < count then none
      else
        (Text.readDigits 16 (cs.take count)).bind fun code =>
          if code.isValidChar then some (Char.ofNat code, count + 1) else none
    | none => (named? letter).map fun c => (c, 1)

/-- The number of blanks and line ends after a backslash that drops them: a line has to end among
them. -/
def droppedCount? (cs : List Char) : Option Nat :=
  let run := cs.takeWhile fun c => isBlank c || c == '\n' || c == '\r'
  if run.contains '\n' && returnsPaired run then some run.length else none
where
  /-- Every carriage return has a line feed after it. -/
  returnsPaired : List Char → Bool
    | '\r' :: '\n' :: cs => returnsPaired cs
    | '\r' :: _ => false
    | _ :: cs => returnsPaired cs
    | [] => true

/-! ## Texts -/

/-- A text up to its closing quote, and what follows; the first `skip` characters belong to an
escape. -/
def quoted (quote : Char) : (skip : Nat) → List Char → Option (List Char × List Char)
  | _, [] => none
  | skip + 1, _ :: cs => quoted quote skip cs
  | 0, c :: cs =>
    if c == quote then some ([], cs)
    else if c == '\\' && quote == '"' then
      (escape? cs).bind fun (d, width) =>
        (quoted quote width cs).map fun (text, rest) => (d :: text, rest)
    else if isPlainChar c then (quoted quote 0 cs).map fun (text, rest) => (c :: text, rest)
    else none

/-- The quotes at the end of a text between three quotes that belong to the text, and what follows
the closing ones. The quotes start here, three or more. -/
def closing? (quote : Char) : List Char → Option (List Char × List Char)
  | a :: b :: c :: cs =>
    if a == quote && b == quote && c == quote then
      match cs with
      | d :: e :: rest =>
        if d == quote && e == quote then some ([d, e], rest)
        else if d == quote then some ([d], e :: rest)
        else some ([], cs)
      | [d] => if d == quote then some ([d], []) else some ([], cs)
      | [] => some ([], [])
    else none
  | _ => none

/-- A text of several lines up to its closing quotes, and what follows; the first `skip` characters
belong to an escape. -/
def longQuoted (quote : Char) : (skip : Nat) → List Char → Option (List Char × List Char)
  | _, [] => none
  | skip + 1, _ :: cs => longQuoted quote skip cs
  | 0, c :: cs =>
    match closing? quote (c :: cs) with
    | some ending => some ending
    | none =>
      if c == '\\' && quote == '"' then
        match droppedCount? cs, escape? cs with
        | some width, _ => longQuoted quote width cs
        | none, some (d, width) =>
          (longQuoted quote width cs).map fun (text, rest) => (d :: text, rest)
        | none, none => none
      else if isPlainChar c || c == '\n' || (c == '\r' && cs.head? == some '\n') then
        (longQuoted quote 0 cs).map fun (text, rest) => (c :: text, rest)
      else none

/-- The text whose opening quote stands here, and what follows it. -/
def text? : List Char → Option (String × List Char)
  | a :: b :: c :: cs =>
    if !(a == '"' || a == '\'') then none
    else
      let read :=
        if a == b && b == c then longQuoted a 0 ((afterBreak? cs).getD cs)
        else quoted a 0 (b :: c :: cs)
      read.map fun (text, rest) => (String.ofList text, rest)
  | [a, b] => if (a == '"' || a == '\'') && a == b then some ("", []) else none
  | _ => none

/-! ## Keys -/

/-- The characters of names that stand without quotes. -/
def isNameChar (c : Char) : Bool := c.isAlphanum || c == '_' || c == '-'

/-- The name that stands here, and what follows it. A name between quotes stays in its line. -/
def name? (cs : List Char) : Option (String × List Char) :=
  match cs with
  | '"' :: rest => (quoted '"' 0 rest).map fun (name, rest) => (String.ofList name, rest)
  | '\'' :: rest => (quoted '\'' 0 rest).map fun (name, rest) => (String.ofList name, rest)
  | cs =>
    let name := cs.takeWhile isNameChar
    if name.isEmpty then none else some (String.ofList name, cs.dropWhile isNameChar)

/-- The path of names that stands here, with points between them, and what follows it and the
blanks behind it. -/
def path? : (fuel : Nat) → List Char → Option (List String × List Char)
  | 0, _ => none
  | fuel + 1, cs =>
    (name? (skipBlanks cs)).bind fun (name, rest) =>
      match skipBlanks rest with
      | '.' :: more => (path? fuel more).map fun (path, rest) => (name :: path, rest)
      | rest => some ([name], rest)

end NetplanEditor.Toml
