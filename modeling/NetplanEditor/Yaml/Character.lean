/-!
The character classes of the data language.

Five characters end a line, a carriage return with a line feed after it counting as one. Spaces and
tabs are the only blanks within a line. Control characters other than tab and the ends of lines may
not occur at all.
-/

namespace NetplanEditor.Yaml

def isBreak (c : Char) : Bool :=
  c == '\n' || c == '\r' || c == '\u0085' || c == '\u2028' || c == '\u2029'

def isSpaceOrTab (c : Char) : Bool := c == ' ' || c == '\t'

/-- The characters that can be written as they are; the byte order mark is none of them. -/
def isPrintable (c : Char) : Bool :=
  let n := c.toNat
  n == 0x0A || (0x20 ≤ n && n ≤ 0x7E) || (0xA0 ≤ n && n ≤ 0xD7FF) ||
    (0xE000 ≤ n && n ≤ 0xFFFD && n != 0xFEFF) || 0x10000 ≤ n

/-- The characters that may occur in a text to be read. -/
def isReadable (c : Char) : Bool :=
  isPrintable c || c == '\t' || c == '\r' || c == '\u0085' || c == '\uFEFF'

/-- The next character separates: it is a space, a tab, the end of a line, or the end of the
text. -/
def separates : List Char → Bool
  | [] => true
  | c :: _ => isSpaceOrTab c || isBreak c

/-- The characters of names: ASCII letters and digits, the underscore and the hyphen. -/
def isNameChar (c : Char) : Bool :=
  c.isAlphanum || c == '_' || c == '-'

/-- The characters that structure a flow collection and end a plain scalar in it. -/
def isFlowIndicator (c : Char) : Bool :=
  c == ',' || c == '[' || c == ']' || c == '\x7b' || c == '\x7d'

end NetplanEditor.Yaml
