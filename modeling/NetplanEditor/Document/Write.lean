import NetplanEditor.Document.Basic
import NetplanEditor.Yaml.Layout

/-!
A document as a value of the data language, and as text.

Keys stand in a fixed order. A setting that is absent leaves no key behind, and so does an empty
list of addresses; an empty list of routes does leave one.
-/

namespace NetplanEditor

open Yaml (Tree)

def schemaVersion : UInt32 := 2

/-- The entry of a map, where there is something to write. -/
def optionalField {α : Type} (key : String) (write : α → Tree) : Option α → List (Tree × Tree)
  | none => []
  | some value => [(.text key, write value)]

/-- Carried values as entries of a map. -/
def fieldsOf (fields : Named Tree) : List (Tree × Tree) :=
  fields.map fun (name, value) => (.text name, value)

def Route.toTree (route : Route) : Tree :=
  .map <| [(.text "to", .text route.destination), (.text "via", .text route.gateway)] ++
    optionalField "metric" (fun metric => .int metric.toNat) route.metric

/-- The settings of an interface as a value. -/
def Entry.toTree (entry : Entry) : Tree :=
  .map <|
    (if entry.addresses.isEmpty then []
      else [(.text "addresses", .seq (entry.addresses.map .text))]) ++
    optionalField "gateway4" .text entry.gateway4 ++
    optionalField "gateway6" .text entry.gateway6 ++
    optionalField "dhcp4" .bool entry.dhcp4 ++
    optionalField "dhcp6" .bool entry.dhcp6 ++
    optionalField "routes" (fun routes => .seq (routes.map Route.toTree)) entry.routes ++
    fieldsOf entry.extra

namespace Document

/-- What a document says about the network, as a value. -/
def networkTree (document : Document) : Tree :=
  .map <|
    (.text "version", .int schemaVersion.toNat) ::
      optionalField "renderer" .text document.renderer ++
      [(.text "ethernets", .map [(.text document.interface, document.entry.toTree)])] ++
      fieldsOf document.sections

def toTree (document : Document) : Tree := .map [(.text "network", document.networkTree)]

/-- The text of the document, if it has one: carried values may be such that nothing can be
written. -/
def render? (document : Document) : Option String := document.toTree.render?

end Document

end NetplanEditor
