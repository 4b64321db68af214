import NetplanEditor.Yaml.Character

/-!
A place in a text that is being read: what is still to come, and where that stands in the text.

Lines and columns count from zero. The end of a line moves to the start of the next line, a carriage
return with a line feed after it being one such end, and every other character moves one column on.
-/

namespace NetplanEditor.Yaml

/-- Where a character stands in a text. -/
structure Spot where
  line : Nat := 0
  column : Nat := 0
  index : Nat := 0
  deriving DecidableEq, Repr

/-- The spot so many characters further in the same line. -/
def Spot.right (spot : Spot) (count : Nat) : Spot :=
  { spot with column := spot.column + count, index := spot.index + count }

/-- The start of the next line, its end having so many characters. -/
def Spot.down (spot : Spot) (count : Nat) : Spot := ⟨spot.line + 1, 0, spot.index + count⟩

/-- What is still to be read of a text. -/
structure Cursor where
  rest : List Char
  spot : Spot := {}
  deriving DecidableEq, Repr

namespace Cursor

def column (cursor : Cursor) : Nat := cursor.spot.column

def head? (cursor : Cursor) : Option Char := cursor.rest.head?

/-- The cursor behind so many characters, none of which ends a line. -/
def skip (cursor : Cursor) (count : Nat) : Cursor :=
  ⟨cursor.rest.drop count, cursor.spot.right count⟩

/-- The characters up to the first that does not have the property, and the cursor there. No end of
a line may have the property. -/
def takeWhile (p : Char → Bool) (cursor : Cursor) : List Char × Cursor :=
  let taken := cursor.rest.takeWhile p
  (taken, cursor.skip taken.length)

/-- The cursor at the first character that does not have the property. -/
def skipWhile (p : Char → Bool) (cursor : Cursor) : Cursor := (cursor.takeWhile p).2

/-- The cursor at the next character, if that is the one. -/
def expect? (c : Char) (cursor : Cursor) : Option Cursor :=
  if cursor.head? = some c then some (cursor.skip 1) else none

def skipBlanks (cursor : Cursor) : Cursor := cursor.skipWhile isSpaceOrTab

/-- The cursor at the end of the line, if a comment starts here. -/
def skipComment (cursor : Cursor) : Cursor :=
  if cursor.head? = some '#' then cursor.skipWhile (!isBreak ·) else cursor

def atSeparator (cursor : Cursor) : Bool := separates cursor.rest

/-- The line or the text ends here. -/
def atLineEnd (cursor : Cursor) : Bool :=
  match cursor.rest with
  | [] => true
  | c :: _ => isBreak c

/-- What the end of a line counts as: a line feed, unless it is one of the two separators beyond
the Latin characters. -/
def normalBreak (c : Char) : Char :=
  if c == '\u2028' || c == '\u2029' then c else '\n'

/-- The end of a line that stands here, and the cursor in the next line. -/
def takeBreak? (cursor : Cursor) : Option (Char × Cursor) :=
  match cursor.rest with
  | '\r' :: '\n' :: rest => some ('\n', ⟨rest, cursor.spot.down 2⟩)
  | c :: rest => if isBreak c then some (normalBreak c, ⟨rest, cursor.spot.down 1⟩) else none
  | [] => none

/-- The cursor in the next line, if the line ends here. -/
def skipBreak (cursor : Cursor) : Cursor :=
  match cursor.takeBreak? with
  | some (_, next) => next
  | none => cursor

/-- At the start of a line stand three times the character and then a separator: the mark of a
document's start or end. -/
def atMark (c : Char) (cursor : Cursor) : Bool :=
  cursor.column == 0 &&
    match cursor.rest with
    | a :: b :: d :: rest => a == c && b == c && d == c && separates rest
    | _ => false

/-- A document starts or ends here by a mark. -/
def atAnyMark (cursor : Cursor) : Bool := cursor.atMark '-' || cursor.atMark '.'

end Cursor

end NetplanEditor.Yaml
