import NetplanEditor.Yaml.Binary64

/-!
Values of the data language: scalars of five kinds, lists, and maps with keys of any kind.

The entries of a map are kept in order, because a value that is only carried along is written back
in the order in which it was read.
-/

namespace NetplanEditor.Yaml

inductive Tree
  | null
  | bool (value : Bool)
  | int (value : Int)
  | float (value : Binary64)
  | text (value : String)
  | seq (items : List Tree)
  | map (entries : List (Tree × Tree))
  deriving Repr

namespace Tree

/-! ## Equality of values

Two maps are the same if they give the same keys the same values, in whatever order. -/

mutual

def same : Tree → Tree → Bool
  | .null, other => match other with | .null => true | _ => false
  | .bool a, other => match other with | .bool b => a == b | _ => false
  | .int a, other => match other with | .int b => a == b | _ => false
  | .float a, other => match other with | .float b => a.same b | _ => false
  | .text a, other => match other with | .text b => a == b | _ => false
  | .seq items, other => match other with | .seq others => sameItems items others | _ => false
  | .map entries, other =>
    match other with
    | .map others => entries.length == others.length && sameEntries entries others
    | _ => false
termination_by structural tree => tree

/-- The items are the same one by one. -/
def sameItems : List Tree → List Tree → Bool
  | [], others => others.isEmpty
  | item :: items, others =>
    match others with
    | other :: others => same item other && sameItems items others
    | [] => false
termination_by structural items => items

/-- Every entry has its like among the others. -/
def sameEntries : List (Tree × Tree) → List (Tree × Tree) → Bool
  | [], _ => true
  | entry :: entries, others => sameEntry entry others && sameEntries entries others
termination_by structural entries => entries

/-- The first of the others with the same key has the same value. -/
def sameEntry : Tree × Tree → List (Tree × Tree) → Bool
  | (key, value), others =>
    match others.find? fun other => same key other.1 with
    | some other => same value other.2
    | none => false
termination_by structural entry => entry

end

/-- One of the entries has the key. -/
def hasKey (key : Tree) (entries : List (Tree × Tree)) : Bool :=
  entries.any fun entry => same key entry.1

end Tree

end NetplanEditor.Yaml
