import NetplanEditor.Yaml.Graph

/-!
Documents as trees: every alias replaced by what it refers to.

An alias refers to the part that holds its anchor in the whole document, so a part can even contain
itself. Two limits keep the tree finite: collections nest at most `maxDepth` deep, and the number of
aliases that are replaced is bounded by the size of the document. What lies beyond a limit is
refused; that is an error for whoever wants to see it, but not for whoever passes over it.
-/

namespace NetplanEditor.Yaml

/-- A part of a document without aliases. -/
inductive Node
  | scalar (tag : Option String) (form : ScalarForm) (text : String)
  | seq (tag : Option String) (items : List Node)
  | map (tag : Option String) (entries : List (Node × Node))
  | broken (fault : Fault)
  | refused (fault : Fault)
  deriving Repr

def maxDepth : Nat := 128

/-- How many aliases are replaced for each start or end of a part in the document. -/
def aliasesPerPart : Nat := 100

namespace Graph

/-- Unfolds the items one after the other, passing on how many aliases can still be replaced. -/
def unfoldItems (unfold : Graph → Nat → Node × Nat) : List Graph → Nat → List Node × Nat
  | [], budget => ([], budget)
  | item :: items, budget =>
    let (node, budget) := unfold item budget
    let (nodes, budget) := unfoldItems unfold items budget
    (node :: nodes, budget)

/-- Unfolds the entries one after the other, each key before its value. -/
def unfoldEntries (unfold : Graph → Nat → Node × Nat) :
    List (Graph × Graph) → Nat → List (Node × Node) × Nat
  | [], budget => ([], budget)
  | (key, value) :: entries, budget =>
    let (keyNode, budget) := unfold key budget
    let (valueNode, budget) := unfold value budget
    let (nodes, budget) := unfoldEntries unfold entries budget
    ((keyNode, valueNode) :: nodes, budget)

/-- Unfolds what is no alias; `inside` unfolds the parts of a collection, and where it is missing
collections are refused. -/
def unfoldPart (inside : Option (Graph → Nat → Node × Nat)) (graph : Graph) (budget : Nat) :
    Node × Nat :=
  match graph, inside with
  | .scalar _ tag form text, _ => (.scalar tag form text, budget)
  | .seq _ tag items, some unfold =>
    let (nodes, budget) := unfoldItems unfold items budget
    (.seq tag nodes, budget)
  | .map _ tag entries, some unfold =>
    let (nodes, budget) := unfoldEntries unfold entries budget
    (.map tag nodes, budget)
  | .seq .., none | .map .., none => (.refused .tooDeep, budget)
  | .alias _, _ => (.refused .unknownAnchor, budget)
  | .broken fault, _ => (.broken fault, budget)

/-- Unfolds a part, an alias being replaced by what the table has under its number. -/
def unfoldWith (table : List (Nat × Graph)) (inside : Option (Graph → Nat → Node × Nat))
    (graph : Graph) (budget : Nat) : Node × Nat :=
  match graph with
  | .alias number =>
    match budget, table.lookup number with
    | 0, _ => (.refused .tooManyAliases, 0)
    | budget + 1, some target => unfoldPart inside target budget
    | budget + 1, none => (.refused .unknownAnchor, budget)
  | graph => unfoldPart inside graph budget

/-- Unfolds a part in which collections nest at most `depth` deep. -/
def unfold (table : List (Nat × Graph)) : (depth : Nat) → Graph → (budget : Nat) → Node × Nat
  | 0 => unfoldWith table none
  | depth + 1 => unfoldWith table (some (unfold table depth))

end Graph

/-- The tree of a document. Where parts share the number of their anchor, the last of them counts. -/
def Source.tree (source : Source) : Node :=
  (source.root.unfold source.root.anchored.reverse maxDepth (aliasesPerPart * source.size)).1

end NetplanEditor.Yaml
