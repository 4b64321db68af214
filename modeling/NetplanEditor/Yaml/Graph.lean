import NetplanEditor.Yaml.Fault
import NetplanEditor.Yaml.Token.Basic

/-!
Documents as graphs: scalars and collections as they are written, with anchors and aliases still in
place.

A token stream can break off, and so can its grammar. The graph then holds what was read up to there,
and the fault stands in the place where reading broke off: whoever goes through the document from
its start meets everything before the fault first.
-/

namespace NetplanEditor.Yaml

/-- A part of a document. Anchors are numbers. -/
inductive Graph
  | scalar (anchor : Option Nat) (tag : Option String) (form : ScalarForm) (text : String)
  | seq (anchor : Option Nat) (tag : Option String) (items : List Graph)
  | map (anchor : Option Nat) (tag : Option String) (entries : List (Graph × Graph))
  | alias (anchor : Nat)
  | broken (fault : Fault)
  deriving Repr

namespace Graph

/-! ## Anchored parts -/

/-- The parts with an anchor in front of others, if this one has the anchor. -/
def consAnchored (anchor : Option Nat) (graph : Graph) (parts : List (Nat × Graph)) :
    List (Nat × Graph) :=
  match anchor with
  | some number => (number, graph) :: parts
  | none => parts

mutual

/-- The parts that have an anchor, in the order in which they start. -/
def anchored : Graph → List (Nat × Graph)
  | .scalar anchor tag form text => consAnchored anchor (.scalar anchor tag form text) []
  | .seq anchor tag items => consAnchored anchor (.seq anchor tag items) (anchoredItems items)
  | .map anchor tag entries =>
    consAnchored anchor (.map anchor tag entries) (anchoredEntries entries)
  | .alias _ | .broken _ => []
termination_by structural graph => graph

def anchoredItems : List Graph → List (Nat × Graph)
  | [] => []
  | item :: items => anchored item ++ anchoredItems items
termination_by structural items => items

def anchoredEntries : List (Graph × Graph) → List (Nat × Graph)
  | [] => []
  | entry :: entries => anchoredEntry entry ++ anchoredEntries entries
termination_by structural entries => entries

def anchoredEntry : Graph × Graph → List (Nat × Graph)
  | (key, value) => anchored key ++ anchored value
termination_by structural entry => entry

end

end Graph

/-! ## Reading -/

/-- Tokens of which a part has been read. -/
structure GraphReader where
  /-- The tokens to come; the list ends where reading breaks off. -/
  rest : List Token
  /-- Why reading breaks off where the tokens run out. -/
  fault : Fault
  handles : List (String × String) := []
  /-- The numbers of the anchors, by their names. -/
  anchors : List (String × Nat) := []
  /-- How many starts and ends of parts have been read. -/
  size : Nat := 0

inductive Context
  /-- Behind the hyphen of an item, or as the whole document. -/
  | item
  /-- As the key or the value of a block mapping, where a list needs no indentation. -/
  | entry
  | flow
  deriving DecidableEq, Repr

/-- What can stand in front of a scalar or a collection. -/
structure Properties where
  anchor : Option String := none
  tag : Option (String × String) := none

namespace GraphReader

/-- The reader where the tokens have run out. -/
def stop (reader : GraphReader) : Graph × GraphReader :=
  (.broken reader.fault, { reader with rest := [] })

/-- Reading breaks off here for a reason of the grammar. -/
def fail (reader : GraphReader) (fault : Fault) : Graph × GraphReader :=
  { reader with fault }.stop

def skip (reader : GraphReader) : GraphReader := { reader with rest := reader.rest.tail }

/-- The reader after another start or end of a part. -/
def count (reader : GraphReader) : GraphReader := { reader with size := reader.size + 1 }

/-- Gives an anchor the next number. A name that is used again gets a number of its own, but does
not count twice, so its number can be given once more to a later name. -/
def declare (reader : GraphReader) (name : Option String) : Option Nat × GraphReader :=
  match name with
  | none => (none, reader)
  | some name =>
    let number := reader.anchors.length
    (some number,
      { reader with anchors := (name, number) :: reader.anchors.filter (·.1 != name) })

/-- Reads an anchor and a tag, in either order. -/
def properties (reader : GraphReader) : Properties × GraphReader :=
  match reader.rest with
  | .anchor name :: .tag handle suffix :: rest => (⟨name, (handle, suffix)⟩, { reader with rest })
  | .anchor name :: rest => (⟨name, none⟩, { reader with rest })
  | .tag handle suffix :: .anchor name :: rest => (⟨name, (handle, suffix)⟩, { reader with rest })
  | .tag handle suffix :: rest => (⟨none, (handle, suffix)⟩, { reader with rest })
  | _ => ({}, reader)

def expandTag (reader : GraphReader) (tag : Option (String × String)) :
    Except Fault (Option String) :=
  match tag with
  | none => .ok none
  | some (handle, suffix) =>
    if handle.isEmpty then .ok (some suffix)
    else
      match reader.handles.lookup handle with
      | some replacement => .ok (some (replacement ++ suffix))
      | none => .error .undeclaredHandle

/-- The tag of a scalar that is written: the bare exclamation mark says nothing about it. In front of
nothing the mark is a tag like any other. -/
def scalarTag (tag : Option String) : Option String := tag.filter (· != "!")

/-- A scalar that is not written at all. -/
def emptyScalar (reader : GraphReader) : Graph × GraphReader :=
  (.scalar none none .plain "", reader.count)

/-- The token cannot start the key or the value of a block mapping. -/
def endsEntry : Token → Bool
  | .key | .value | .blockEnd => true
  | _ => false

/-- The token cannot start the item of a list. -/
def endsItem : Token → Bool
  | .blockEntry | .blockEnd => true
  | _ => false

/-- The token cannot start a value in a flow sequence. -/
def endsFlowItem : Token → Bool
  | .flowEntry | .flowSequenceEnd => true
  | _ => false

/-- The token cannot start a value in a flow mapping. -/
def endsFlowValue : Token → Bool
  | .flowEntry | .flowMappingEnd => true
  | _ => false

mutual

/-- Reads a scalar, a collection or an alias. -/
def node : (fuel : Nat) → Context → GraphReader → Graph × GraphReader
  | 0, _, reader => reader.stop
  | fuel + 1, context, reader =>
    match reader.rest with
    | .alias name :: _ =>
      match reader.anchors.lookup name with
      | some number => (.alias number, reader.skip.count)
      | none => reader.fail .unknownAnchor
    | _ =>
      let (properties, reader) := reader.properties
      match reader.expandTag properties.tag with
      | .error fault => reader.fail fault
      | .ok tag =>
        let (anchor, declared) := reader.declare properties.anchor
        let start := declared.count
        let isBlock := context != .flow
        match reader.rest with
        | [] => reader.stop
        | .scalar form text :: _ => (.scalar anchor (scalarTag tag) form text, start.skip)
        | .flowSequenceStart :: _ =>
          let (items, reader) := flowItems fuel true start.skip
          (.seq anchor tag items, reader)
        | .flowMappingStart :: _ =>
          let (entries, reader) := flowEntries fuel true start.skip
          (.map anchor tag entries, reader)
        | token :: _ =>
          if context == .entry && token == .blockEntry then
            let (items, reader) := flushItems fuel start
            (.seq anchor tag items, reader)
          else if isBlock && token == .blockSequenceStart then
            let (items, reader) := blockItems fuel start.skip
            (.seq anchor tag items, reader)
          else if isBlock && token == .blockMappingStart then
            let (entries, reader) := blockEntries fuel start.skip
            (.map anchor tag entries, reader)
          else if anchor.isSome || tag.isSome then (.scalar anchor tag .plain "", start)
          else reader.fail .unexpectedToken
termination_by structural fuel => fuel

/-- Reads a part, which is an empty scalar if the next token cannot start one. -/
def nodeOr : (fuel : Nat) → Context → (isEnd : Token → Bool) → GraphReader → Graph × GraphReader
  | 0, _, _, reader => reader.stop
  | fuel + 1, context, isEnd, reader =>
    match reader.rest with
    | [] => reader.stop
    | token :: _ => if isEnd token then reader.emptyScalar else node fuel context reader
termination_by structural fuel => fuel

/-- Reads a value behind its colon; without a colon it is an empty scalar. -/
def valueOr : (fuel : Nat) → Context → (isEnd : Token → Bool) → GraphReader → Graph × GraphReader
  | 0, _, _, reader => reader.stop
  | fuel + 1, context, isEnd, reader =>
    match reader.rest with
    | [] => reader.stop
    | .value :: _ => nodeOr fuel context isEnd reader.skip
    | _ => reader.emptyScalar
termination_by structural fuel => fuel

/-- Reads the items of an indented list. -/
def blockItems : (fuel : Nat) → GraphReader → List Graph × GraphReader
  | 0, reader => let (item, reader) := reader.stop; ([item], reader)
  | fuel + 1, reader =>
    match reader.rest with
    | .blockEntry :: _ =>
      let (item, reader) := nodeOr fuel .item endsItem reader.skip
      let (items, reader) := blockItems fuel reader
      (item :: items, reader)
    | .blockEnd :: _ => ([], reader.skip.count)
    | [] => let (item, reader) := reader.stop; ([item], reader)
    | _ => let (item, reader) := reader.fail .unexpectedToken; ([item], reader)
termination_by structural fuel => fuel

/-- Reads the items of a list that is not indented below its key. -/
def flushItems : (fuel : Nat) → GraphReader → List Graph × GraphReader
  | 0, reader => let (item, reader) := reader.stop; ([item], reader)
  | fuel + 1, reader =>
    match reader.rest with
    | .blockEntry :: _ =>
      let isEnd (token : Token) := endsItem token || endsEntry token
      let (item, reader) := nodeOr fuel .item isEnd reader.skip
      let (items, reader) := flushItems fuel reader
      (item :: items, reader)
    | [] => let (item, reader) := reader.stop; ([item], reader)
    | _ => ([], reader.count)
termination_by structural fuel => fuel

/-- Reads the entries of a block mapping. -/
def blockEntries : (fuel : Nat) → GraphReader → List (Graph × Graph) × GraphReader
  | 0, reader => let (key, reader) := reader.stop; ([(key, key)], reader)
  | fuel + 1, reader =>
    match reader.rest with
    | .key :: _ =>
      let (key, reader) := nodeOr fuel .entry endsEntry reader.skip
      let (value, reader) := valueOr fuel .entry endsEntry reader
      let (entries, reader) := blockEntries fuel reader
      ((key, value) :: entries, reader)
    | .blockEnd :: _ => ([], reader.skip.count)
    | [] => let (key, reader) := reader.stop; ([(key, key)], reader)
    | _ => let (key, reader) := reader.fail .unexpectedToken; ([(key, key)], reader)
termination_by structural fuel => fuel

/-- Reads the items of a flow sequence, from its first item or from the comma before the next. -/
def flowItems : (fuel : Nat) → (isFirst : Bool) → GraphReader → List Graph × GraphReader
  | 0, _, reader => let (item, reader) := reader.stop; ([item], reader)
  | fuel + 1, isFirst, reader =>
    match reader.rest with
    | .flowSequenceEnd :: _ => ([], reader.skip.count)
    | [] => let (item, reader) := reader.stop; ([item], reader)
    | token :: _ =>
      if !isFirst && token != .flowEntry then
        let (item, reader) := reader.fail .unexpectedToken
        ([item], reader)
      else
        let reader := if isFirst then reader else reader.skip
        match reader.rest with
        | .flowSequenceEnd :: _ => ([], reader.skip.count)
        | .key :: _ =>
          let (entry, reader) := flowPair fuel reader.skip.count
          let (items, reader) := flowItems fuel false reader
          (.map none none [entry] :: items, reader)
        | _ =>
          let (item, reader) := node fuel .flow reader
          let (items, reader) := flowItems fuel false reader
          (item :: items, reader)
termination_by structural fuel => fuel

/-- Reads the one entry of a mapping that stands in a flow sequence without braces. Where the key is
missing, the token in its place is passed over. -/
def flowPair : (fuel : Nat) → GraphReader → (Graph × Graph) × GraphReader
  | 0, reader => let (key, reader) := reader.stop; ((key, key), reader)
  | fuel + 1, reader =>
    match reader.rest with
    | [] => let (key, reader) := reader.stop; ((key, key), reader)
    | token :: _ =>
      let (key, reader) :=
        if token == .value || endsFlowItem token then reader.skip.emptyScalar
        else node fuel .flow reader
      let (value, reader) := valueOr fuel .flow endsFlowItem reader
      ((key, value), reader.count)
termination_by structural fuel => fuel

/-- Reads the entries of a flow mapping, from its first key or from the comma before the next. -/
def flowEntries : (fuel : Nat) → (isFirst : Bool) → GraphReader →
    List (Graph × Graph) × GraphReader
  | 0, _, reader => let (key, reader) := reader.stop; ([(key, key)], reader)
  | fuel + 1, isFirst, reader =>
    match reader.rest with
    | .flowMappingEnd :: _ => ([], reader.skip.count)
    | [] => let (key, reader) := reader.stop; ([(key, key)], reader)
    | token :: _ =>
      if !isFirst && token != .flowEntry then
        let (key, reader) := reader.fail .unexpectedToken
        ([(key, key)], reader)
      else
        let reader := if isFirst then reader else reader.skip
        match reader.rest with
        | .flowMappingEnd :: _ => ([], reader.skip.count)
        | .key :: _ =>
          let isEnd (token : Token) := token == .value || endsFlowValue token
          let (key, reader) := nodeOr fuel .flow isEnd reader.skip
          let (value, reader) := valueOr fuel .flow endsFlowValue reader
          let (entries, reader) := flowEntries fuel false reader
          ((key, value) :: entries, reader)
        | _ =>
          let (key, reader) := node fuel .flow reader
          let (value, reader) :=
            if reader.rest.isEmpty then reader.stop else reader.emptyScalar
          let (entries, reader) := flowEntries fuel false reader
          ((key, value) :: entries, reader)
termination_by structural fuel => fuel

end

/-! ## Directives -/

def standardHandles : List (String × String) := [("!", "!"), ("!!", "tag:yaml.org,2002:")]

/-- The versions of the language that can be asked for. -/
def isKnownVersion (major minor : Nat) : Bool := major == 1 && (minor == 1 || minor == 2)

/-- Reads the directives in front of a document up to its mark. -/
def directives : (versionSeen : Bool) → (declared : List (String × String)) → List Token →
    Except Fault (List (String × String) × List Token)
  | seen, declared, .versionDirective major minor :: rest =>
    if seen || !isKnownVersion major minor then .error .refusedDirective
    else directives true declared rest
  | seen, declared, .tagDirective handle replacement :: rest =>
    if (declared.lookup handle).isSome then .error .refusedDirective
    else directives seen (declared ++ [(handle, replacement)]) rest
  | _, declared, rest => .ok (declared ++ standardHandles, rest)

end GraphReader

/-! ## Documents -/

/-- What was read of a text that is to hold one document. -/
structure Source where
  root : Graph
  /-- What is wrong after the end of the document. -/
  flaw : Option Fault
  /-- How many starts and ends of parts the document has. -/
  size : Nat

namespace Source

/-- What is wrong with the tokens after a document, of which `fault` stands after the last. -/
def flawAfter (fault : Fault) : List Token → Option Fault
  | [] => some fault
  | .documentEnd :: rest => flawAfter fault rest
  | .streamEnd :: _ => none
  | _ => some .secondDocument

/-- The token starts a document with a mark, or ends one. -/
def isOutside : Token → Bool
  | .versionDirective .. | .tagDirective .. | .documentStart | .documentEnd | .streamEnd => true
  | _ => false

/-- Reads the part that is the whole document. -/
def ofRoot (root : Graph) (reader : GraphReader) : Source :=
  ⟨root, flawAfter reader.fault reader.rest, reader.size⟩

/-- Reads the content of a document; it may be left out after a mark. -/
def content (fuel : Nat) (marked : Bool) (reader : GraphReader) : Source :=
  match reader.rest with
  | [] => ⟨.broken reader.fault, none, reader.size⟩
  | token :: _ =>
    let (root, reader) :=
      if marked && isOutside token then reader.emptyScalar else reader.node fuel .item
    ofRoot root reader

/-- Reads the document of a token stream. A stream without a document is read as a mapping without
entries. -/
def ofTokens (stream : TokenStream) : Source :=
  let fault := stream.fault.getD .unexpectedToken
  let fuel := 4 * (stream.tokens.length + 1)
  match stream.tokens with
  | [] => ⟨.broken fault, none, 0⟩
  | .streamEnd :: _ => ⟨.map none none [], none, 0⟩
  | token :: _ =>
    match GraphReader.directives false [] stream.tokens with
    | .error fault => ⟨.broken fault, none, 0⟩
    | .ok (handles, rest) =>
      if isOutside token && token != .documentEnd then
        match rest with
        | .documentStart :: rest => content fuel true { rest, fault, handles }
        | [] => ⟨.broken fault, none, 0⟩
        | _ => ⟨.broken .unexpectedToken, none, 0⟩
      else content fuel false { rest, fault, handles }

end Source

end NetplanEditor.Yaml
