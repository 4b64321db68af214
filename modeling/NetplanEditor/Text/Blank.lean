/-!
Blank characters, and what trimming and cutting at blanks do to a text.

A character is blank when it has the Unicode property `White_Space`: the ASCII controls from tab to
carriage return, the space, and the spaces and line separators beyond ASCII. Everything a user
types (route tokens, selectors, lists of addresses) is trimmed and cut at these characters.
-/

namespace NetplanEditor

def isBlank (c : Char) : Bool :=
  let n := c.toNat
  (0x09 ≤ n && n ≤ 0x0D) || n == 0x20 || n == 0x85 || n == 0xA0 || n == 0x1680 ||
    (0x2000 ≤ n && n ≤ 0x200A) || n == 0x2028 || n == 0x2029 || n == 0x202F || n == 0x205F ||
    n == 0x3000

namespace Text

/-! ## Trimming -/

/-- The text without the blanks it starts with. -/
def trimStartChars (cs : List Char) : List Char := cs.dropWhile isBlank

/-- The text without the blanks it ends with. -/
def trimEndChars (cs : List Char) : List Char := (cs.reverse.dropWhile isBlank).reverse

/-- The text without the blanks it starts and ends with. -/
def trimChars (cs : List Char) : List Char := trimEndChars (trimStartChars cs)

/-- The text without the blanks at its end. -/
def trimEnd (s : String) : String := String.ofList (trimEndChars s.toList)

/-- The text without the blanks around it. -/
def trim (s : String) : String := String.ofList (trimChars s.toList)

/-- A text is blank when trimming leaves nothing of it. -/
def isBlankText (s : String) : Bool := s.toList.all isBlank

/-! ## Words -/

/-- The maximal runs of characters that are not blank, in order. The run being read is kept in
`run`, last character first. -/
def wordsFrom (run : List Char) : List Char → List (List Char)
  | [] => if run.isEmpty then [] else [run.reverse]
  | c :: cs =>
    if isBlank c then
      if run.isEmpty then wordsFrom [] cs else run.reverse :: wordsFrom [] cs
    else wordsFrom (c :: run) cs

/-- The maximal runs of characters that are not blank, in order. -/
def words (s : String) : List String := (wordsFrom [] s.toList).map String.ofList

end Text

end NetplanEditor
