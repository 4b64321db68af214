import NetplanEditor.Document.Basic
import NetplanEditor.Document.Write
import NetplanEditor.Log
import NetplanEditor.Text.Blank
import NetplanEditor.Text.Numeral
import NetplanEditor.Yaml.Read

/-!
Reading a document from text.

A text is read from its start to its end, and the first fault on the way is the one reported. Only
then the version is looked at, and after it whether the text configures other interfaces. Older
tools wrote flags and metrics as texts, which are accepted beside booleans and integers.
-/

namespace NetplanEditor

open Yaml (Fault Node Tree readRecord readOnce require)

/-! ## Scalars -/

def flagOfText? (text : String) : Option Bool :=
  match Text.lower (Text.trim text) with
  | "yes" | "y" | "true" | "on" => some true
  | "no" | "n" | "false" | "off" => some false
  | _ => none

def readFlag (node : Node) : Except Fault Bool := do
  match ← node.tree with
  | .bool value => return value
  | .text text =>
    match flagOfText? text with
    | some value => return value
    | none => throw (.invalidFlag text)
  | _ => throw (.wrongKind "a boolean")

/-- Reads a metric. A blank text stands for none. -/
def readMetric (node : Node) : Except Fault (Option UInt32) := do
  match ← node.tree with
  | .int value =>
    if 0 ≤ value ∧ value < UInt32.size then return some (.ofNat value.toNat)
    else throw (.wrongKind "a metric")
  | .text text =>
    if Text.isBlankText text then return none
    else
      match Text.readUnsigned32 (Text.trim text) with
      | some value => return some value
      | none => throw (.invalidMetric text)
  | _ => throw (.wrongKind "a metric")

/-! ## Routes -/

/-- The keys of a route that have been read. -/
structure RouteDraft where
  destination : Option String := none
  gateway : Option String := none
  metric : Option (Option UInt32) := none

/-- Takes up one key of a route. Keys that say nothing about a route are passed over. -/
def RouteDraft.step (draft : RouteDraft) (key : String) (value : Node) :
    Except Fault RouteDraft :=
  match key with
  | "to" => (readOnce draft.destination Node.text value).map ({ draft with destination := · })
  | "via" => (readOnce draft.gateway Node.text value).map ({ draft with gateway := · })
  | "metric" =>
    let read (node : Node) := (node.optional readMetric).map Option.join
    (readOnce draft.metric read value).map ({ draft with metric := · })
  | _ => value.pass.map fun () => draft

def Route.ofNode (node : Node) : Except Fault Route := do
  let draft ← readRecord RouteDraft.step {} (← node.entries)
  return ⟨← require "to" draft.destination, ← require "via" draft.gateway, draft.metric.join⟩

/-! ## Values that are only carried along -/

/-- Takes up the key of a carried value behind those before it. -/
def carry (values : List (String × Tree)) (key : String) (value : Node) :
    Except Fault (List (String × Tree)) :=
  value.tree.map fun tree => values ++ [(key, tree)]

/-- The carried values by their keys. The last value of a key counts, but within each of its values
the keys have to be distinct. -/
def carried (values : List (String × Tree)) : Except Fault (Named Tree) :=
  if values.all fun (_, tree) => tree.keysDistinct then
    .ok (values.foldl (fun fields (key, tree) => fields.put key tree) [])
  else .error .repeatedKey

/-! ## The entry of an interface -/

/-- The keys of an entry that have been read. -/
structure EntryDraft where
  addresses : Option (List String) := none
  gateway4 : Option (Option String) := none
  gateway6 : Option (Option String) := none
  dhcp4 : Option (Option Bool) := none
  dhcp6 : Option (Option Bool) := none
  routes : Option (Option (List Route)) := none
  extra : List (String × Tree) := []

/-- Takes up one key of an entry. -/
def EntryDraft.step (draft : EntryDraft) (key : String) (value : Node) :
    Except Fault EntryDraft :=
  match key with
  | "addresses" =>
    (readOnce draft.addresses (·.list Node.text) value).map ({ draft with addresses := · })
  | "gateway4" =>
    (readOnce draft.gateway4 (·.optional Node.text) value).map ({ draft with gateway4 := · })
  | "gateway6" =>
    (readOnce draft.gateway6 (·.optional Node.text) value).map ({ draft with gateway6 := · })
  | "dhcp4" => (readOnce draft.dhcp4 (·.optional readFlag) value).map ({ draft with dhcp4 := · })
  | "dhcp6" => (readOnce draft.dhcp6 (·.optional readFlag) value).map ({ draft with dhcp6 := · })
  | "routes" =>
    let read (node : Node) := node.optional (·.list Route.ofNode)
    (readOnce draft.routes read value).map ({ draft with routes := · })
  | key => (carry draft.extra key value).map ({ draft with extra := · })

def Entry.ofNode (node : Node) : Except Fault Entry := do
  let draft ← readRecord EntryDraft.step {} (← node.entries)
  let extra ← carried draft.extra
  return {
    addresses := draft.addresses.getD []
    gateway4 := draft.gateway4.join
    gateway6 := draft.gateway6.join
    dhcp4 := draft.dhcp4.join
    dhcp6 := draft.dhcp6.join
    routes := draft.routes.join
    extra }

/-! ## The network -/

/-- What a text says about the network: the entries of all interfaces it configures, where a null
stands for an empty entry. -/
structure Network where
  version : UInt32
  renderer : Option String
  ethernets : Named (Option Entry)
  sections : Named Tree

/-- The keys of a network that have been read. -/
structure NetworkDraft where
  version : Option UInt32 := none
  renderer : Option (Option String) := none
  ethernets : Option (Named (Option Entry)) := none
  sections : List (String × Tree) := []

/-- Takes up the entry of one interface. The last entry of an interface counts. -/
def readEthernet (ethernets : Named (Option Entry)) (name : String) (value : Node) :
    Except Fault (Named (Option Entry)) :=
  (value.optional Entry.ofNode).map fun entry => ethernets.put name entry

def readEthernets (node : Node) : Except Fault (Named (Option Entry)) := do
  readRecord readEthernet [] (← node.entries)

/-- Takes up one key of a network. -/
def NetworkDraft.step (draft : NetworkDraft) (key : String) (value : Node) :
    Except Fault NetworkDraft :=
  match key with
  | "version" =>
    (readOnce draft.version Node.unsigned32 value).map ({ draft with version := · })
  | "renderer" =>
    (readOnce draft.renderer (·.optional Node.text) value).map ({ draft with renderer := · })
  | "ethernets" =>
    (readOnce draft.ethernets readEthernets value).map ({ draft with ethernets := · })
  | key => (carry draft.sections key value).map ({ draft with sections := · })

def Network.ofNode (node : Node) : Except Fault Network := do
  let draft ← readRecord NetworkDraft.step {} (← node.entries)
  let version ← require "version" draft.version
  let sections ← carried draft.sections
  return ⟨version, draft.renderer.join, draft.ethernets.getD [], sections⟩

/-- Takes up one key beside the network, which is passed over unless it is the network itself. -/
def stepRoot (network : Option Network) (key : String) (value : Node) :
    Except Fault (Option Network) :=
  if key = "network" then readOnce network Network.ofNode value
  else value.pass.map fun () => network

/-- Reads the network of a whole text. -/
def Network.ofRoot (node : Node) : Except Fault Network := do
  require "network" (← readRecord stepRoot none (← node.entries))

/-! ## Documents -/

/-- Why a text is not the document of an interface, or a document has no text. -/
inductive DocumentError
  | unreadable (fault : Fault)
  /-- A carried value is such that nothing can be written. -/
  | unwritable
  | unsupportedVersion (version : UInt32)
  | foreignInterface (expected found : String)
  deriving DecidableEq, Repr

namespace DocumentError

def unwritableText : String := "a map with one entry cannot be a key"

def message : DocumentError → String
  | unreadable fault => s!"Invalid netplan YAML: {fault.message}"
  | unwritable => "Failed to serialize netplan document: " ++ unwritableText
  | unsupportedVersion version =>
    s!"Unsupported netplan version {Text.decimal version.toNat}: expected {
      Text.decimal schemaVersion.toNat}"
  | foreignInterface expected found =>
    s!"Document for '{expected}' also configures interface '{found}'"

end DocumentError

namespace Document

/-- The document of an interface that a network describes. A missing entry is reported and counts as
empty. -/
def ofNetwork (interface : String) (network : Network) :
    Logged (Except DocumentError Document) :=
  if network.version ≠ schemaVersion then
    pure (.error (.unsupportedVersion network.version))
  else
    match network.ethernets.names.find? (· ≠ interface) with
    | some found => pure (.error (.foreignInterface interface found))
    | none =>
      let document (entry : Entry) : Document :=
        { interface, renderer := network.renderer, entry, sections := network.sections }
      match network.ethernets.lookup interface with
      | some entry => pure (.ok (document (entry.getD .empty)))
      | none =>
        ⟨.ok (document .empty),
          [.warn s!"No entry for {interface} in document, starting from an empty one"]⟩

/-- The document of an interface that a text holds. -/
def parse (interface text : String) : Logged (Except DocumentError Document) :=
  match Yaml.readText Network.ofRoot text with
  | .error fault => pure (.error (.unreadable fault))
  | .ok network => ofNetwork interface network

def render (document : Document) : Except DocumentError String :=
  match document.render? with
  | some text => .ok text
  | none => .error .unwritable

end Document

end NetplanEditor
