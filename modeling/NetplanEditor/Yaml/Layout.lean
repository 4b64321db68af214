import NetplanEditor.Yaml.Style
import NetplanEditor.Yaml.Tree
import NetplanEditor.Text.Numeral

/-!
The written form of a value: block style, one item or entry a line, two columns for each level.

A list that is the value of an entry is not indented below its key. Nested lists, and lists and maps
behind the marks of an item, start in the line of the mark. A key that does not fit in a line of its
own stands behind a question mark, and its value behind a colon in the next line.
-/

namespace NetplanEditor.Yaml

namespace Tree

/-! ## Scalars -/

/-- The text of a scalar that is no text itself; collections have none. -/
def word? : Tree → Option (List Char)
  | .null => some "null".toList
  | .bool b => some (if b then "true".toList else "false".toList)
  | .int i => some (NetplanEditor.Text.decimalInt i).toList
  | .float f => some f.render.toList
  | .text _ | .seq _ | .map _ => none

/-- The longest key, in bytes, that is written in the line of its value. -/
def maxKey : Nat := 128

/-- The key as it is written in the line of its value, if it fits there: a scalar of one line or an
empty collection. -/
def lineKey? : Tree → Option (List Char)
  | .text s =>
    if Style.isMultiline s.toList || s.utf8ByteSize > maxKey then none
    else some (Style.writeKey s.toList)
  | .seq items => if items.isEmpty then some ['[', ']'] else none
  | .map entries => if entries.isEmpty then some ['\x7b', '\x7d'] else none
  | tree => tree.word?

/-! ## Collections -/

mutual

/-- The value behind the mark of an item, a question mark or a colon, `column` being the column
where it starts. -/
def writeInPlace (column : Nat) : Tree → List Char
  | .seq items =>
    if items.isEmpty then ['[', ']', '\n'] else (writeItems column items).drop column
  | .map entries =>
    if entries.isEmpty then ['\x7b', '\x7d', '\n'] else (writeEntries column entries).drop column
  | .text s => Style.writeLine column s.toList
  | .null => "null\n".toList
  | .bool b => if b then "true\n".toList else "false\n".toList
  | .int i => (NetplanEditor.Text.decimalInt i).toList ++ ['\n']
  | .float f => f.render.toList ++ ['\n']
termination_by structural tree => tree

/-- The value of an entry whose key stands in the same line, `column` being the column of the
key. -/
def writeValue (column : Nat) : Tree → List Char
  | .seq items =>
    if items.isEmpty then " []\n".toList else '\n' :: writeItems column items
  | .map entries =>
    if entries.isEmpty then [' ', '\x7b', '\x7d', '\n'] else '\n' :: writeEntries (column + 2) entries
  | .text s => ' ' :: Style.writeLine (column + 2) s.toList
  | .null => " null\n".toList
  | .bool b => if b then " true\n".toList else " false\n".toList
  | .int i => ' ' :: (NetplanEditor.Text.decimalInt i).toList ++ ['\n']
  | .float f => ' ' :: f.render.toList ++ ['\n']
termination_by structural tree => tree

/-- The lines of the items of a list, whose marks stand at the column. -/
def writeItems (column : Nat) : List Tree → List Char
  | [] => []
  | item :: items =>
    Style.pad column ++ '-' :: ' ' :: writeInPlace (column + 2) item ++ writeItems column items
termination_by structural items => items

/-- The lines of the entries of a map, whose keys stand at the column. -/
def writeEntries (column : Nat) : List (Tree × Tree) → List Char
  | [] => []
  | entry :: entries => Style.pad column ++ writeEntry column entry ++ writeEntries column entries
termination_by structural entries => entries

/-- The lines of an entry from its column on. -/
def writeEntry (column : Nat) : Tree × Tree → List Char
  | (key, value) =>
    match key.lineKey? with
    | some line => line ++ ':' :: writeValue column value
    | none =>
      '?' :: ' ' :: writeInPlace (column + 2) key ++
        Style.pad column ++ ':' :: ' ' :: writeInPlace (column + 2) value
termination_by structural entry => entry

end

/-! ## Values that have no written form -/

mutual

/-- The value has a written form: nowhere in it is a map whose only key is a map with one entry. -/
def isWritable : Tree → Bool
  | .seq items => itemsWritable items
  | .map entries => !(entries matches [(.map [_], _)]) && entriesWritable entries
  | .null | .bool _ | .int _ | .float _ | .text _ => true
termination_by structural tree => tree

def itemsWritable : List Tree → Bool
  | [] => true
  | item :: items => isWritable item && itemsWritable items
termination_by structural items => items

/-- Every key and value has a written form. -/
def entriesWritable : List (Tree × Tree) → Bool
  | [] => true
  | entry :: entries => entryWritable entry && entriesWritable entries
termination_by structural entries => entries

/-- The key and the value have a written form. -/
def entryWritable : Tree × Tree → Bool
  | (key, value) => isWritable key && isWritable value
termination_by structural entry => entry

end

/-- The written form of a value that is a document of its own. -/
def render? (tree : Tree) : Option String :=
  if tree.isWritable then some (String.ofList (tree.writeInPlace 0)) else none

end Tree

end NetplanEditor.Yaml
