import NetplanEditor.Yaml.Node
import NetplanEditor.Yaml.Plain
import NetplanEditor.Yaml.Token.Lexer
import NetplanEditor.Yaml.Tree

/-!
Reading the parts of a document as what is wanted in their place.

The place decides how a scalar is read. Where a text is wanted, every scalar is the text it is
written with, whatever it would mean elsewhere; where any value is accepted, a plain scalar means
what it looks like and a tag of the language forces its own meaning. A part that nobody wants is
passed over, which succeeds unless the text breaks off in it.
-/

namespace NetplanEditor.Yaml

/-! ## Tags -/

/-- The tags that the language itself gives a meaning. -/
inductive CoreTag
  | null
  | bool
  | int
  | float
  deriving DecidableEq, Repr

/-- The tag of the language that a text is. -/
def CoreTag.ofText? (tag : String) : Option CoreTag :=
  match tag with
  | "tag:yaml.org,2002:null" => some .null
  | "tag:yaml.org,2002:bool" => some .bool
  | "tag:yaml.org,2002:int" => some .int
  | "tag:yaml.org,2002:float" => some .float
  | _ => none

/-- The tag is one of the document's own. -/
def isLocalTag (tag : Option String) : Bool := tag.any fun text => text.toList.head? == some '!'

namespace Node

/-! ## Any value -/

/-- The value of a scalar with the meaning. -/
def ofMeaning (text : String) : Meaning → Except Fault Tree
  | .null => .ok .null
  | .bool value => .ok (.bool value)
  | .int value => .ok (.int value)
  | .wide => .error .wideInteger
  | .float value => .ok (.float value)
  | .text => .ok (.text text)

/-- The value of a scalar that has to have the meaning which its tag asks for. -/
def ofCoreTag (text : String) (tag : CoreTag) : Except Fault Tree :=
  let cs := text.toList
  match tag with
  | .null => if Plain.isNullWord cs then .ok .null else .error .tagMismatch
  | .bool => ((Plain.bool? cs).map Tree.bool).elim (.error .tagMismatch) .ok
  | .int => ((Plain.numeral? cs).bind Plain.Numeral.meaning?).elim (.error .tagMismatch) (ofMeaning text)
  | .float => ((Plain.float? cs).map Tree.float).elim (.error .tagMismatch) .ok

/-- The value of a scalar where any value is accepted. -/
def scalarTree (tag : Option String) (form : ScalarForm) (text : String) : Except Fault Tree :=
  if isLocalTag tag then .error .localTag
  else
    match tag with
    | none => if form = .plain then ofMeaning text (Plain.meaning text.toList) else .ok (.text text)
    | some tag =>
      match CoreTag.ofText? tag with
      | some core => ofCoreTag text core
      | none => .ok (.text text)

mutual

/-- The part as a value of any kind. Keys may occur more than once here. -/
def tree : Node → Except Fault Tree
  | .scalar tag form text => scalarTree tag form text
  | .seq tag items => if isLocalTag tag then .error .localTag else (treeItems items).map Tree.seq
  | .map tag entries =>
    if isLocalTag tag then .error .localTag else (treeEntries entries).map Tree.map
  | .broken fault | .refused fault => .error fault
termination_by structural node => node

def treeItems : List Node → Except Fault (List Tree)
  | [] => .ok []
  | item :: items =>
    match tree item with
    | .error fault => .error fault
    | .ok value => (treeItems items).map (value :: ·)
termination_by structural items => items

def treeEntries : List (Node × Node) → Except Fault (List (Tree × Tree))
  | [] => .ok []
  | entry :: entries =>
    match treeEntry entry with
    | .error fault => .error fault
    | .ok pair => (treeEntries entries).map (pair :: ·)
termination_by structural entries => entries

/-- The entry as a pair of values. -/
def treeEntry : Node × Node → Except Fault (Tree × Tree)
  | (key, value) =>
    match tree key with
    | .error fault => .error fault
    | .ok keyTree => (tree value).map fun valueTree => (keyTree, valueTree)
termination_by structural entry => entry

end

/-! ## Passing over -/

mutual

def pass : Node → Except Fault Unit
  | .scalar .. | .refused _ => .ok ()
  | .seq _ items => passItems items
  | .map _ entries => passEntries entries
  | .broken fault => .error fault
termination_by structural node => node

def passItems : List Node → Except Fault Unit
  | [] => .ok ()
  | item :: items =>
    match pass item with
    | .error fault => .error fault
    | .ok () => passItems items
termination_by structural items => items

def passEntries : List (Node × Node) → Except Fault Unit
  | [] => .ok ()
  | entry :: entries =>
    match passEntry entry with
    | .error fault => .error fault
    | .ok () => passEntries entries
termination_by structural entries => entries

def passEntry : Node × Node → Except Fault Unit
  | (key, value) =>
    match pass key with
    | .error fault => .error fault
    | .ok () => pass value
termination_by structural entry => entry

end

/-! ## Texts, numbers and collections -/

/-- The error for a part that is not what is wanted. -/
def reject {α : Type} (wanted : String) : Node → Except Fault α
  | .broken fault | .refused fault => .error fault
  | _ => .error (.wrongKind wanted)

def text : Node → Except Fault String
  | .scalar _ _ text => .ok text
  | node => node.reject "a text"

/-- The part is an empty plain scalar, which stands for any empty collection. -/
def isVoid : Node → Bool
  | .scalar _ .plain text => text.isEmpty
  | _ => false

def items (node : Node) : Except Fault (List Node) :=
  match node with
  | .seq _ items => .ok items
  | node => if node.isVoid then .ok [] else node.reject "a list"

def entries (node : Node) : Except Fault (List (Node × Node)) :=
  match node with
  | .map _ entries => .ok entries
  | node => if node.isVoid then .ok [] else node.reject "a map"

/-- The part is null, and so counts as absent where something optional is wanted. A scalar that its
tag forces to be null has to have a spelling of null. -/
def isAbsent : Node → Except Fault Bool
  | .scalar tag form text =>
    if form ≠ .plain then .ok false
    else
      match tag with
      | none => .ok (Plain.isNull text.toList)
      | some tag =>
        if CoreTag.ofText? tag = some .null then
          if Plain.isNullWord text.toList then .ok true else .error .tagMismatch
        else .ok false
  | .broken fault | .refused fault => .error fault
  | .seq .. | .map .. => .ok false

def optional {α : Type} (read : Node → Except Fault α) (node : Node) :
    Except Fault (Option α) := do
  if ← node.isAbsent then return none
  return some (← read node)

def list {α : Type} (read : Node → Except Fault α) (node : Node) : Except Fault (List α) := do
  (← node.items).mapM read

/-- The scalar is one that is read as a number: it is plain, or a literal block whose tag asks for
an integer. -/
def isNumeric (tag : Option String) (form : ScalarForm) : Bool :=
  form == .plain || (form == .literal && tag.bind CoreTag.ofText? == some .int)

/-- The part as an unsigned integer of 32 bits. -/
def unsigned32 (node : Node) : Except Fault UInt32 :=
  match node with
  | .scalar tag form text =>
    match (if isNumeric tag form then Plain.unsigned64? text.toList else none) with
    | some n => if n < UInt32.size then .ok (.ofNat n) else .error (.wrongKind "an integer of 32 bits")
    | none => .error (.wrongKind "an integer")
  | node => node.reject "an integer"

end Node

/-! ## Repeated keys -/

namespace Tree

mutual

/-- No map in the value has two entries with the same key. -/
def keysDistinct : Tree → Bool
  | .seq items => itemsDistinct items
  | .map entries => entriesDistinct entries
  | .null | .bool _ | .int _ | .float _ | .text _ => true
termination_by structural tree => tree

/-- The keys in every item are distinct. -/
def itemsDistinct : List Tree → Bool
  | [] => true
  | item :: items => keysDistinct item && itemsDistinct items
termination_by structural items => items

/-- The keys of the entries are distinct, and so are those within them. -/
def entriesDistinct : List (Tree × Tree) → Bool
  | [] => true
  | entry :: entries =>
    entryDistinct entry && !hasKey entry.1 entries && entriesDistinct entries
termination_by structural entries => entries

/-- The keys within the key and the value are distinct. -/
def entryDistinct : Tree × Tree → Bool
  | (key, value) => keysDistinct key && keysDistinct value
termination_by structural entry => entry

end

end Tree

/-! ## Records -/

/-- Reads the entries of a record one after the other; `step` takes up one of them. -/
def readRecord {σ : Type} (step : σ → String → Node → Except Fault σ) :
    σ → List (Node × Node) → Except Fault σ
  | state, [] => .ok state
  | state, (key, value) :: entries => do
    let key ← key.text
    let state ← step state key value
    readRecord step state entries

/-- Reads the value of a key that may occur once only; `seen` is what it had before. -/
def readOnce {α : Type} (seen : Option α) (read : Node → Except Fault α) (node : Node) :
    Except Fault (Option α) :=
  if seen.isSome then .error .repeatedKey else (read node).map some

/-- The value of a key that a record cannot be without. -/
def require {α : Type} (key : String) (seen : Option α) : Except Fault α :=
  match seen with
  | some value => .ok value
  | none => .error (.missingKey key)

/-! ## Texts -/

def Source.ofText (text : String) : Source := .ofTokens (.ofText text)

/-- Reads a text as one document. What is wrong after its end counts only if the document itself can
be read. -/
def readText {α : Type} (read : Node → Except Fault α) (text : String) : Except Fault α :=
  let source := Source.ofText text
  match read source.tree, source.flaw with
  | .ok value, none => .ok value
  | .ok _, some fault => .error fault
  | .error fault, _ => .error fault

end NetplanEditor.Yaml
