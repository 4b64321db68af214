import NetplanEditor.Text.Numeral
import NetplanEditor.Yaml.Token.Folding

/-!
Reading a block scalar: a header, and below it lines that are indented further than their parent.

The header can give the indentation and say what becomes of the line feeds at the end. Without it the
first line that is not empty shows the indentation. In a folded block two lines that both start
without a blank are joined by a space.
-/

namespace NetplanEditor.Yaml.Block

/-- What becomes of the line feeds at the end. -/
inductive Chomp
  | strip
  | clip
  | keep
  deriving DecidableEq, Repr

/-- What the header of a block says. -/
structure Header where
  chomp : Chomp := .clip
  indent : Option Nat := none
  deriving DecidableEq, Repr

namespace Header

/-- What a sign in the header asks for. -/
def chomp? (c : Char) : Option Chomp :=
  if c == '+' then some .keep else if c == '-' then some .strip else none

/-- The header at the start of the text, the sign and the digit coming in either order, and the
number of its characters. The digit zero says nothing and is refused. -/
def ofChars (cs : List Char) : Except Fault (Header × Nat) :=
  let header : Header × Nat :=
    match cs with
    | a :: b :: _ =>
      match chomp? a, Text.digitValue? a with
      | some chomp, _ =>
        match Text.digitValue? b with
        | some n => (⟨chomp, some n⟩, 2)
        | none => (⟨chomp, none⟩, 1)
      | none, some n =>
        match chomp? b with
        | some chomp => (⟨chomp, some n⟩, 2)
        | none => (⟨.clip, some n⟩, 1)
      | none, none => ({}, 0)
    | [a] =>
      match chomp? a, Text.digitValue? a with
      | some chomp, _ => (⟨chomp, none⟩, 1)
      | none, some n => (⟨.clip, some n⟩, 1)
      | none, none => ({}, 0)
    | [] => ({}, 0)
  if header.1.indent = some 0 then .error .malformedBlockHeader else .ok header

/-- Reads the line of the header, and gives the cursor in the next line. -/
def read (cursor : Cursor) : Except Fault (Header × Cursor) := do
  let (header, count) ← ofChars cursor.rest
  let cursor := (cursor.skip count).skipBlanks.skipComment
  if cursor.atLineEnd then return (header, cursor.skipBreak)
  throw .malformedBlockHeader

end Header

/-- The ends of lines up to the next line with something in it, and the indentation on the way. -/
structure Margin where
  breaks : List Char
  widest : Nat
  cursor : Cursor

/-- Reads empty lines and indentation. Spaces belong to the indentation up to the column `indent`,
or all of them where it is zero because the indentation is not known yet. -/
def margin (indent : Nat) : List Char → Spot → (widest : Nat) → Except Fault Margin
  | '\r' :: '\n' :: cs, spot, widest =>
    (margin indent cs (spot.down 2) (max widest spot.column)).map fun below =>
      { below with breaks := '\n' :: below.breaks }
  | c :: cs, spot, widest =>
    let inMargin := indent == 0 || spot.column < indent
    if c == ' ' && inMargin then margin indent cs (spot.right 1) widest
    else if c == '\t' && inMargin then .error .tabInIndentation
    else if isBreak c then
      (margin indent cs (spot.down 1) (max widest spot.column)).map fun below =>
        { below with breaks := Cursor.normalBreak c :: below.breaks }
    else .ok ⟨[], max widest spot.column, ⟨c :: cs, spot⟩⟩
  | [], spot, widest => .ok ⟨[], max widest spot.column, ⟨[], spot⟩⟩

/-- What stands between two lines of a block: `ending` is the end of the line above, `empty` the
ends of the empty lines below that, and `even` says that neither line starts with a blank. -/
def joint (folded : Bool) (ending : Option Char) (empty : List Char) (even : Bool) : List Char :=
  if folded && ending == some '\n' && even then (if empty.isEmpty then [' '] else empty)
  else ending.toList ++ empty

/-- What stands at the end of a block. -/
def tail (chomp : Chomp) (ending : Option Char) (empty : List Char) : List Char :=
  match chomp with
  | .strip => []
  | .clip => ending.toList
  | .keep => ending.toList ++ empty

/-- Reads the lines at the column `indent`. The line above started with a blank if `blankAbove`
says so; it ended with `ending`, and the empty lines since then with `empty`. -/
def lines (folded : Bool) (chomp : Chomp) (indent : Nat) :
    (fuel : Nat) → (blankAbove : Bool) → (ending : Option Char) → (empty : List Char) → Cursor →
      Except Fault (List Char × Cursor)
  | 0, _, ending, empty, cursor => .ok (tail chomp ending empty, cursor)
  | fuel + 1, blankAbove, ending, empty, cursor => do
    if cursor.column != indent || cursor.rest.isEmpty then
      return (tail chomp ending empty, cursor)
    let blankHere := cursor.head?.any isSpaceOrTab
    let between := joint folded ending empty (!blankAbove && !blankHere)
    let (line, cursor) := cursor.takeWhile (!isBreak ·)
    let ending := cursor.takeBreak?.map (·.1)
    let cursor := cursor.skipBreak
    let below ← margin indent cursor.rest cursor.spot 0
    let (more, cursor) ← lines folded chomp indent fuel blankHere ending below.breaks below.cursor
    return (between ++ line ++ more, cursor)

/-- Reads the block whose mark stands here, and gives the cursor behind it. Its lines have to stand
at the column `floor` or to the right of it. -/
def read (folded : Bool) (floor : Nat) (cursor : Cursor) :
    Except Fault (List Char × Cursor) := do
  let (header, cursor) ← Header.read (cursor.skip 1)
  let given := header.indent.map fun n => floor - 1 + n
  let above ← margin (given.getD 0) cursor.rest cursor.spot 0
  let indent := given.getD (max (max above.widest floor) 1)
  lines folded header.chomp indent (cursor.rest.length + 1) false none above.breaks above.cursor

end NetplanEditor.Yaml.Block
