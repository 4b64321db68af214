/-!
Paths as text, and their components.

A path is written with slashes between its components; it is absolute if it starts with one. Empty
components and inner components `.` say nothing, so they are ignored wherever a path is walked or
its parent is taken, but a path is otherwise kept as it was written: `..` is never resolved here.
-/

namespace NetplanEditor.Path

def segments : List Char → List (List Char)
  | [] => [[]]
  | '/' :: cs => [] :: segments cs
  | c :: cs =>
    match segments cs with
    | [] => [[c]]
    | segment :: rest => (c :: segment) :: rest

def unsegments : List (List Char) → List Char
  | [] => []
  | [segment] => segment
  | segment :: rest => segment ++ '/' :: unsegments rest

/-- The path starts at the root of the file system. -/
def isAbsolute (path : String) : Bool := path.toList.head? == some '/'

def endsInSlash (path : String) : Bool := path.toList.getLast? == some '/'

/-- The components that are walked one after the other, `.` and `..` included. -/
def components (path : String) : List String :=
  ((segments path.toList).filter (!·.isEmpty)).map String.ofList

/-- The path of `name` in the directory `dir`: an absolute name stands for itself, and otherwise
one slash separates the two, unless the directory is empty or already ends in one. -/
def join (dir name : String) : String :=
  if isAbsolute name then name
  else if dir.isEmpty || endsInSlash dir then dir ++ name
  else dir ++ "/" ++ name

def isIdle (segment : List Char) : Bool := segment.isEmpty || segment == ['.']

/-- Drops the segments at the end that name nothing. -/
def dropIdleEnd (segs : List (List Char)) : List (List Char) :=
  (segs.reverse.dropWhile isIdle).reverse

/-- What a path starts with before its first component: the root's slash, a leading `.`, or
nothing. -/
def lead : List Char → List Char × List Char
  | '/' :: cs => (['/'], cs)
  | ['.'] => (['.'], [])
  | '.' :: '/' :: cs => (['.'], '/' :: cs)
  | cs => ([], cs)

/-- The path without its last component. The root has no parent; a single relative component has
the empty path as its parent. -/
def parent? (path : String) : Option String :=
  let (start, body) := lead path.toList
  match (dropIdleEnd (segments body)).reverse with
  | [] => if start == ['.'] then some "" else none
  | _ :: before => some (String.ofList (start ++ unsegments (dropIdleEnd before.reverse)))

/-- The path and its parents, nearest first; `fuel` bounds their number. -/
def ancestorsWithin : (fuel : Nat) → String → List String
  | 0, _ => []
  | fuel + 1, path =>
    path :: (match parent? path with
      | none => []
      | some parent => ancestorsWithin fuel parent)

/-- The path and its parents, nearest first. No path has more of them than characters. -/
def ancestors (path : String) : List String := ancestorsWithin (path.length + 1) path

end NetplanEditor.Path
