import NetplanEditor.Family
import NetplanEditor.Route
import NetplanEditor.Text.Sorted
import NetplanEditor.Yaml.Tree

/-!
The document of one interface, as it is edited.

A document owns exactly one entry, that of the interface it is named for. Keys of the entry that the
editor does not manage, and the other sections of the network, are carried along as they were read.
A missing key and an empty value are different things for routes and flags, and are kept apart.
-/

namespace NetplanEditor

structure Entry where
  /-- The addresses in CIDR notation, in the order in which they were given. -/
  addresses : List String := []
  gateway4 : Option String := none
  gateway6 : Option String := none
  /-- The DHCPv4 flag, or nothing where its key is absent. -/
  dhcp4 : Option Bool := none
  /-- The DHCPv6 flag, or nothing where its key is absent. -/
  dhcp6 : Option Bool := none
  /-- The static routes, or nothing where their key is absent. -/
  routes : Option (List Route) := none
  /-- The keys that the editor does not manage. -/
  extra : Named Yaml.Tree := []

namespace Entry

def empty : Entry := {}

def isEmpty (entry : Entry) : Bool :=
  entry.addresses.isEmpty && entry.gateway4.isNone && entry.gateway6.isNone &&
    entry.dhcp4.isNone && entry.dhcp6.isNone && entry.routes.isNone && entry.extra.isEmpty

def gateway (entry : Entry) : Family → Option String
  | .v4 => entry.gateway4
  | .v6 => entry.gateway6

def dhcp (entry : Entry) : Family → Option Bool
  | .v4 => entry.dhcp4
  | .v6 => entry.dhcp6

/-- The entry with a default gateway for a family. -/
def withGateway (entry : Entry) (address : String) : Family → Entry
  | .v4 => { entry with gateway4 := some address }
  | .v6 => { entry with gateway6 := some address }

/-- The entry with the DHCP flag of a family. -/
def withDhcp (entry : Entry) (enabled : Bool) : Family → Entry
  | .v4 => { entry with dhcp4 := some enabled }
  | .v6 => { entry with dhcp6 := some enabled }

end Entry

structure Document where
  interface : String
  /-- The backend that is to render the configuration. -/
  renderer : Option String := none
  entry : Entry := {}
  sections : Named Yaml.Tree := []

namespace Document

def skeleton (interface : String) : Document := { interface }

def isSkeleton (document : Document) : Bool :=
  document.renderer.isNone && document.entry.isEmpty && document.sections.isEmpty

/-- The carried values are the same under the same names. -/
def sameFields : Named Yaml.Tree → Named Yaml.Tree → Bool
  | [], [] => true
  | (name, value) :: rest, (name', value') :: rest' =>
    name == name' && value.same value' && sameFields rest rest'
  | _, _ => false

def same (a b : Document) : Bool :=
  a.interface == b.interface && a.renderer == b.renderer &&
    a.entry.addresses == b.entry.addresses && a.entry.gateway4 == b.entry.gateway4 &&
    a.entry.gateway6 == b.entry.gateway6 && a.entry.dhcp4 == b.entry.dhcp4 &&
    a.entry.dhcp6 == b.entry.dhcp6 && a.entry.routes == b.entry.routes &&
    sameFields a.entry.extra b.entry.extra && sameFields a.sections b.sections

end Document

/-- What a document says about the DHCP of a family. -/
inductive DhcpState
  | enabled
  | disabled
  | unset
  deriving DecidableEq, Repr

namespace DhcpState

/-- The state that a flag stands for. -/
def ofFlag : Option Bool → DhcpState
  | some true => enabled
  | some false => disabled
  | none => unset

/-- The exit code that tells the state. -/
def exitCode : DhcpState → UInt8
  | enabled => 0
  | disabled => 1
  | unset => 2

def name : DhcpState → String
  | enabled => "enabled"
  | disabled => "disabled"
  | unset => "unset"

end DhcpState

/-- What the document says about the DHCP of a family. -/
def Document.dhcpState (document : Document) (family : Family) : DhcpState :=
  .ofFlag (document.entry.dhcp family)

end NetplanEditor
