import NetplanEditor.Yaml.Cursor
import NetplanEditor.Yaml.Fault

/-!
The blanks and line ends between two pieces of a scalar, and what they are folded to.

Within a line blanks stand for themselves. Across lines a single line feed is folded to a space, and
of several the first is dropped; blanks at the ends and starts of the lines are lost.
-/

namespace NetplanEditor.Yaml

/-- The blanks and line ends between two pieces of a scalar. -/
structure Gap where
  /-- The blanks before the first end of a line. -/
  blanks : List Char := []
  broken : Bool := false
  /-- The first end of a line, unless it was escaped. -/
  first : Option Char := none
  more : List Char := []
  deriving DecidableEq, Repr

namespace Gap

def text (gap : Gap) : List Char :=
  if gap.broken then
    match gap.first with
    | none => gap.more
    | some c =>
      if c == '\n' then (if gap.more.isEmpty then [' '] else gap.more) else c :: gap.more
  else gap.blanks

/-- The gap with another blank, which is lost after the end of a line. -/
def addBlank (gap : Gap) (c : Char) : Gap :=
  if gap.broken then gap else { gap with blanks := gap.blanks ++ [c] }

/-- The gap with another end of a line. -/
def addBreak (gap : Gap) (c : Char) : Gap :=
  if gap.broken then { gap with more := gap.more ++ [c] }
  else { gap with broken := true, first := some c }

/-- Continues a gap over the blanks and line ends at the start of the text, which stands at the
spot. A tab left of the column `least` in a new line is an error. -/
def read (least : Nat) : List Char → Spot → Gap → Except Fault (Gap × Cursor)
  | '\r' :: '\n' :: cs, spot, gap => read least cs (spot.down 2) (gap.addBreak '\n')
  | c :: cs, spot, gap =>
    if isSpaceOrTab c then
      if gap.broken && c == '\t' && spot.column < least then .error .tabInIndentation
      else read least cs (spot.right 1) (gap.addBlank c)
    else if isBreak c then read least cs (spot.down 1) (gap.addBreak (Cursor.normalBreak c))
    else .ok (gap, ⟨c :: cs, spot⟩)
  | [], spot, gap => .ok (gap, ⟨[], spot⟩)

end Gap

end NetplanEditor.Yaml
