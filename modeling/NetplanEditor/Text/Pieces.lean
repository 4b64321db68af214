/-!
Cutting a text at separator characters.

`pieces` cuts at every separator and so always gives at least one piece, possibly empty; `firstCut`
cuts once, at the first occurrence of a character.
-/

namespace NetplanEditor.Text

/-- Puts a character in front of the first of several pieces. -/
def consHead (c : Char) : List (List Char) → List (List Char)
  | [] => [[c]]
  | piece :: rest => (c :: piece) :: rest

def cutAt (isSeparator : Char → Bool) : List Char → List (List Char)
  | [] => [[]]
  | c :: cs =>
    if isSeparator c then [] :: cutAt isSeparator cs
    else consHead c (cutAt isSeparator cs)

/-- The pieces of a text between its separators, in order. -/
def pieces (isSeparator : Char → Bool) (s : String) : List String :=
  (cutAt isSeparator s.toList).map String.ofList

/-- What stands before and after the first `mark`, or nothing where the text has none. -/
def firstCutChars (mark : Char) : List Char → Option (List Char × List Char)
  | [] => none
  | c :: cs =>
    if c = mark then some ([], cs)
    else (firstCutChars mark cs).map fun (before, after) => (c :: before, after)

/-- What stands before and after the first `mark`, or nothing where the text has none. -/
def firstCut (mark : Char) (s : String) : Option (String × String) :=
  (firstCutChars mark s.toList).map fun (before, after) =>
    (String.ofList before, String.ofList after)

def hasChar (c : Char) (s : String) : Bool := s.toList.any (· == c)

/-- The text `needle` stands at the start of `cs`, and this is what follows it. -/
def afterChars? : (needle cs : List Char) → Option (List Char)
  | [], cs => some cs
  | _ :: _, [] => none
  | n :: needle, c :: cs => if n = c then afterChars? needle cs else none

/-- The text `needle` stands somewhere in `cs`. -/
def infixChars (needle : List Char) : List Char → Bool
  | [] => needle.isEmpty
  | c :: cs => (afterChars? needle (c :: cs)).isSome || infixChars needle cs

/-- The text `needle` stands somewhere in `s`. -/
def hasText (needle s : String) : Bool := infixChars needle.toList s.toList

end NetplanEditor.Text
