import NetplanEditor.Yaml.Token.Folding

/-!
Reading a plain scalar.

It ends at a colon or a number sign that separates, at the mark of a document, in block context at a
line that is not indented enough, and in flow context at the characters that structure collections.
-/

namespace NetplanEditor.Yaml

structure PlainScalar where
  text : List Char
  /-- A line ended after the scalar, so what follows is at the start of a line. -/
  lineEnded : Bool
  cursor : Cursor

namespace PlainScalar

/-- The part of a plain scalar up to the next blank or end of a line. -/
def run (inFlow : Bool) : List Char → Except Fault (List Char)
  | [] => .ok []
  | c :: cs =>
    if isSpaceOrTab c || isBreak c then .ok []
    else if inFlow && c == ':' && cs.head?.any fun next => next == '?' || isFlowIndicator next then
      .error .misplacedColon
    else if (c == ':' && separates cs) || (inFlow && isFlowIndicator c) then .ok []
    else (run inFlow cs).map (c :: ·)

/-- Continues a plain scalar behind a gap. -/
def lines (inFlow : Bool) (least : Nat) : (fuel : Nat) → Gap → Cursor → Except Fault PlainScalar
  | 0, gap, cursor => .ok ⟨[], gap.broken, cursor⟩
  | fuel + 1, gap, cursor => do
    if cursor.atAnyMark || cursor.head? = some '#' then return ⟨[], gap.broken, cursor⟩
    let taken ← run inFlow cursor.rest
    let (piece, gap) := if taken.isEmpty then ([], gap) else (gap.text ++ taken, {})
    let cursor := cursor.skip taken.length
    if !cursor.atSeparator || cursor.rest.isEmpty then return ⟨piece, gap.broken, cursor⟩
    let (gap, cursor) ← gap.read least cursor.rest cursor.spot
    if !inFlow && cursor.column < least then return ⟨piece, gap.broken, cursor⟩
    let more ← lines inFlow least fuel gap cursor
    return { more with text := piece ++ more.text }

/-- Reads the plain scalar that starts here. Its further lines start at the column `least` or to the
right of it. -/
def read (inFlow : Bool) (least : Nat) (cursor : Cursor) : Except Fault PlainScalar :=
  lines inFlow least (cursor.rest.length + 1) {} cursor

end PlainScalar

end NetplanEditor.Yaml
