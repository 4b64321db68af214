import NetplanEditor.Toml.Basic
import NetplanEditor.Toml.Text

/-!
Reading a settings file into the lines that say something.

A line holds the header of a table, a key with its value, or nothing, and a comment can stand behind
each. Lists, and tables within a line, can go on over several lines and end in a comma.
-/

namespace NetplanEditor.Toml

/-! ## Blanks and comments -/

/-- What follows a comment, if one starts here; it goes on to the end of its line. -/
def skipComment : List Char → List Char
  | '#' :: cs => cs.dropWhile isPlainChar
  | cs => cs

/-- What follows the end of the line, before which only blanks and a comment stand. The text may
end here too. -/
def lineEnd? (cs : List Char) : Option (List Char) :=
  match skipComment (skipBlanks cs) with
  | [] => some []
  | rest => afterBreak? rest

/-- What follows blanks, comments and ends of lines, each round of `fuel` passing one line. -/
def skipLines : (fuel : Nat) → List Char → List Char
  | 0, cs => cs
  | fuel + 1, cs =>
    let rest := skipComment (skipBlanks cs)
    match afterBreak? rest with
    | some next => skipLines fuel next
    | none => rest

/-- What follows blanks, comments and ends of lines. -/
def skipSpace (cs : List Char) : List Char := skipLines (cs.length + 1) cs

/-! ## Values -/

/-- The path of a key up to its equals sign, and what follows that. -/
def key? (cs : List Char) : Option (List String × List Char) :=
  (path? (cs.length + 1) cs).bind fun (path, rest) =>
    match rest with
    | '=' :: rest => some (path, skipBlanks rest)
    | _ => none

mutual

/-- The value that stands here, and what follows it. -/
def value? : (fuel : Nat) → List Char → Option (Value × List Char)
  | 0, _ => none
  | fuel + 1, cs =>
    match cs with
    | 't' :: 'r' :: 'u' :: 'e' :: rest => some (.flag true, rest)
    | 'f' :: 'a' :: 'l' :: 's' :: 'e' :: rest => some (.flag false, rest)
    | '[' :: rest => (items? fuel rest).map fun (items, rest) => (.array items, rest)
    | '\x7b' :: rest => (entries? fuel rest).map fun (entries, rest) => (.table entries, rest)
    | cs => (text? cs).map fun (text, rest) => (.text text, rest)
termination_by structural fuel => fuel

/-- The items of a list up to its closing bracket, and what follows that. -/
def items? : (fuel : Nat) → List Char → Option (List Value × List Char)
  | 0, _ => none
  | fuel + 1, cs =>
    match skipSpace cs with
    | ']' :: rest => some ([], rest)
    | cs =>
      (value? fuel cs).bind fun (item, rest) =>
        match skipSpace rest with
        | ',' :: rest => (items? fuel rest).map fun (items, rest) => (item :: items, rest)
        | ']' :: rest => some ([item], rest)
        | _ => none
termination_by structural fuel => fuel

/-- The entries of a table up to its closing brace, and what follows that. -/
def entries? : (fuel : Nat) → List Char → Option (List (List String × Value) × List Char)
  | 0, _ => none
  | fuel + 1, cs =>
    match skipSpace cs with
    | '\x7d' :: rest => some ([], rest)
    | cs =>
      (key? cs).bind fun (path, rest) =>
        (value? fuel rest).bind fun (value, rest) =>
          match skipSpace rest with
          | ',' :: rest =>
            (entries? fuel rest).map fun (entries, rest) => ((path, value) :: entries, rest)
          | '\x7d' :: rest => some ([(path, value)], rest)
          | _ => none
termination_by structural fuel => fuel

end

/-! ## Lines -/

/-- The path between brackets, and what follows the closing one. -/
def header? (cs : List Char) : Option (List String × List Char) :=
  (path? (cs.length + 1) cs).bind fun (path, rest) =>
    match rest with
    | ']' :: rest => some (path, rest)
    | _ => none

/-- The line that starts here, and what follows what it says. -/
def line? (cs : List Char) : Option (Line × List Char) :=
  match cs with
  | '[' :: '[' :: rest =>
    (header? rest).bind fun (path, rest) =>
      match rest with
      | ']' :: rest => some (.itemHeader path, rest)
      | _ => none
  | '[' :: rest => (header? rest).map fun (path, rest) => (.header path, rest)
  | cs =>
    (key? cs).bind fun (path, rest) =>
      (value? (rest.length + 1) rest).map fun (value, rest) => (.entry path value, rest)

/-- The lines that say something, each round of `fuel` reading one of them. -/
def linesWithin : (fuel : Nat) → List Char → Option (List Line)
  | 0, _ => none
  | fuel + 1, cs =>
    match skipSpace cs with
    | [] => some []
    | cs =>
      (line? cs).bind fun (line, rest) =>
        (lineEnd? rest).bind fun rest => (linesWithin fuel rest).map (line :: ·)

/-- The text after a byte order mark at its start. -/
def afterByteOrderMark : List Char → List Char
  | '\uFEFF' :: cs => cs
  | cs => cs

/-- The lines of a settings file that say something, if it is well-formed. -/
def lines? (text : String) : Option (List Line) :=
  let cs := afterByteOrderMark text.toList
  linesWithin (cs.length + 1) cs

end NetplanEditor.Toml
