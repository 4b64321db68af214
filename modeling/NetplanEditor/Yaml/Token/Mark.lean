import NetplanEditor.Text.Numeral
import NetplanEditor.Text.Utf8
import NetplanEditor.Yaml.Cursor
import NetplanEditor.Yaml.Fault
import NetplanEditor.Yaml.Token.Basic

/-!
Reading anchors, aliases, tags and directives, which start with a mark of their own and end in the
line in which they start.
-/

namespace NetplanEditor.Yaml.Mark

/-! ## Anchors and aliases -/

/-- The characters that may follow the name of an anchor directly, separators apart. -/
def followsName (c : Char) : Bool :=
  c == '?' || c == ':' || c == ',' || c == ']' || c == '\x7d' || c == '%' || c == '@' || c == '\x60'

/-- Reads the name after the mark of an anchor or alias, and gives the cursor behind it. -/
def name (cursor : Cursor) : Except Fault (String × Cursor) :=
  let (name, cursor) := (cursor.skip 1).takeWhile isNameChar
  if !name.isEmpty && (cursor.atSeparator || cursor.head?.any followsName) then
    .ok (String.ofList name, cursor)
  else .error .malformedAnchor

/-! ## Tags -/

/-- The characters of the text of a tag. Between angle brackets, and in what a handle stands for, it
can also hold some that structure flow collections. -/
def isTagChar (wide : Bool) (c : Char) : Bool :=
  isNameChar c || [';', '/', '?', ':', '@', '&', '=', '+', '$', '.', '%', '!', '~', '*', '\'', '(',
    ')'].contains c || (wide && [',', '[', ']'].contains c)

/-- The number of bytes of the character that starts with the byte. -/
def byteCount? (b : Nat) : Option Nat :=
  if b < 0x80 then some 1
  else if 0xC0 ≤ b ∧ b < 0xE0 then some 2
  else if 0xE0 ≤ b ∧ b < 0xF0 then some 3
  else if 0xF0 ≤ b ∧ b < 0xF8 then some 4
  else none

/-- The bytes that the characters write. A percent sign and two hexadecimal digits write one byte,
and such bytes have to come in the number that a character has; `due` of them are still to come. -/
def tagBytes : (due : Nat) → List Char → Option (List UInt8)
  | 0, [] => some []
  | _ + 1, [] => none
  | due, '%' :: a :: b :: cs =>
    match Text.readDigits 16 [a, b], due with
    | some byte, 0 =>
      (byteCount? byte).bind fun count =>
        (tagBytes (count - 1) cs).map (UInt8.ofNat byte :: ·)
    | some byte, due + 1 =>
      if 0x80 ≤ byte ∧ byte < 0xC0 then (tagBytes due cs).map (UInt8.ofNat byte :: ·) else none
    | none, _ => none
  | 0, c :: cs =>
    if c == '%' then none else (tagBytes 0 cs).map ((String.singleton c).toUTF8.toList ++ ·)
  | _ + 1, _ :: _ => none

/-- The text that the bytes of a tag stand for; it ends at a NUL. -/
def tagText (bytes : List UInt8) : String :=
  String.ofList (Text.lossyChars (bytes.takeWhile (· != 0)))

/-- Reads the text of a tag, which is not empty if `start` is empty, and gives it behind `start`. -/
def uri (wide : Bool) (start : List Char) (cursor : Cursor) : Except Fault (String × Cursor) :=
  let (written, cursor) := cursor.takeWhile (isTagChar wide)
  match tagBytes 0 written with
  | none => .error .malformedTag
  | some bytes =>
    if start.isEmpty && written.isEmpty then .error .malformedTag
    else .ok (tagText ((String.ofList (start.drop 1)).toUTF8.toList ++ bytes), cursor)

/-- Reads the handle that a tag starts with: an exclamation mark, a name, and another exclamation
mark unless the tag goes on with something else. -/
def handle (cursor : Cursor) : List Char × Cursor :=
  let (name, next) := (cursor.skip 1).takeWhile isNameChar
  match next.expect? '!' with
  | some behind => ('!' :: name ++ ['!'], behind)
  | none => ('!' :: name, next)

/-- The characters are a handle with its closing exclamation mark. -/
def isClosedHandle (cs : List Char) : Bool := 1 < cs.length && cs.getLast? == some '!'

/-- Reads the two parts of a tag up to its end. -/
def tagParts (cursor : Cursor) : Except Fault (String × String × Cursor) := do
  if (cursor.skip 1).head? = some '<' then
    let (text, cursor) ← uri true [] (cursor.skip 2)
    match cursor.expect? '>' with
    | some cursor => return ("", text, cursor)
    | none => throw .malformedTag
  let (start, next) := handle cursor
  if isClosedHandle start then
    let (suffix, cursor) ← uri false [] next
    return (String.ofList start, suffix, cursor)
  let (suffix, cursor) ← uri false start next
  return if suffix.isEmpty then ("", "!", cursor) else ("!", suffix, cursor)

/-- Reads the tag that starts here, and gives the cursor behind it. -/
def tag (inFlow : Bool) (cursor : Cursor) : Except Fault (Token × Cursor) := do
  let (handle, suffix, cursor) ← tagParts cursor
  if cursor.atSeparator || (inFlow && cursor.head? == some ',') then
    return (.tag handle suffix, cursor)
  throw .malformedTag

/-! ## Directives -/

/-- The most digits that a part of a version has. -/
def maxVersionDigits : Nat := 9

def versionPart (cursor : Cursor) : Except Fault (Nat × Cursor) :=
  let (digits, cursor) := cursor.takeWhile Char.isDigit
  match Text.readDigits 10 digits with
  | some n => if digits.length ≤ maxVersionDigits then .ok (n, cursor) else .error .malformedDirective
  | none => .error .malformedDirective

/-- Reads what follows the name of a version directive. -/
def version (cursor : Cursor) : Except Fault (Token × Cursor) := do
  let (major, cursor) ← versionPart cursor.skipBlanks
  match cursor.expect? '.' with
  | none => throw .malformedDirective
  | some cursor =>
    let (minor, cursor) ← versionPart cursor
    return (.versionDirective major minor, cursor)

/-- Reads what follows the name of a tag directive: a handle and what it stands for. -/
def declaration (cursor : Cursor) : Except Fault (Token × Cursor) := do
  let cursor := cursor.skipBlanks
  if cursor.head? ≠ some '!' then throw .malformedDirective
  let (start, cursor) := handle cursor
  if start.length ≠ 1 && !isClosedHandle start then throw .malformedDirective
  if !cursor.head?.any isSpaceOrTab then throw .malformedDirective
  let (replacement, cursor) ← uri true [] cursor.skipBlanks
  if cursor.atSeparator then
    return (.tagDirective (String.ofList start) replacement, cursor)
  throw .malformedDirective

/-- Reads the directive whose percent sign stands here, and gives the cursor in the next line. -/
def directive (cursor : Cursor) : Except Fault (Token × Cursor) := do
  let (name, cursor) := (cursor.skip 1).takeWhile isNameChar
  if name.isEmpty || !cursor.atSeparator then throw .malformedDirective
  let (token, cursor) ←
    if name = "YAML".toList then version cursor
    else if name = "TAG".toList then declaration cursor
    else throw .malformedDirective
  let cursor := cursor.skipBlanks.skipComment
  if cursor.atLineEnd then return (token, cursor.skipBreak)
  throw .malformedDirective

end NetplanEditor.Yaml.Mark
