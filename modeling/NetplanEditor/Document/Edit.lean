import NetplanEditor.Address
import NetplanEditor.Document.Basic
import NetplanEditor.Log

/-!
The four edits of a document.

`setGateway` writes default gateways and drops the routes, `setRoute` adds or removes routes, and
`setDhcp` and `setIp` start over from the skeleton. Edits are made for callers that send the whole
wanted state at once, which is why a gateway supersedes the routes and addresses supersede
everything.
-/

namespace NetplanEditor

/-- The token that removes IPv4 routes, and is skipped where an address is wanted. -/
def removeToken : String := "remove"

/-- The token that removes IPv6 routes, and is skipped where an address is wanted. -/
def removeToken6 : String := "remove6"

/-- The option that switches DHCP of a family on. -/
def Family.dhcpOption : Family → String
  | .v4 => "dhcp"
  | .v6 => "dhcp6"

/-- What an edit of the routes did. -/
inductive RouteUpdate
  | added (route : Route)
  | alreadyPresent (route : Route)
  /-- So many routes of the family were removed. -/
  | removed (family : Family) (count : Nat)
  deriving DecidableEq, Repr

/-- The event that tells what an edit of the routes did. -/
def RouteUpdate.event : RouteUpdate → LogEvent
  | added route => .info s!"Added route {route.describe}"
  | alreadyPresent route => .info s!"Route {route.describe} already present"
  | removed family count => .info s!"Removed {Text.decimal count} {family.name} route(s)"

namespace Document

def withEntry (document : Document) (entry : Entry) : Document := { document with entry }

/-! ## Gateways -/

/-- Writes one default gateway and drops the routes; a token that mentions a removal is skipped. A
token with a colon is an IPv6 address, and any other an IPv4 one. -/
def setOneGateway (document : Document) (token : String) : Logged Document :=
  if Text.hasText removeToken token then
    ⟨document, [.debug s!"Ignoring gateway token '{token}'"]⟩
  else
    let family := if Family.v6.owns token then Family.v6 else .v4
    let entry := { document.entry with routes := none }
    let dropped :=
      match document.entry.routes with
      | none => []
      | some routes =>
        [.info s!"Setting {family.gatewayKey} on {document.interface} drops {
          Text.decimal routes.length} route(s)"]
    ⟨document.withEntry (entry.withGateway token family), dropped⟩

/-- Writes the default gateways that the tokens name, one after the other. -/
def setGateway (document : Document) : (tokens : List String) → Logged Document
  | [] => pure document
  | token :: tokens => do
    let document ← document.setOneGateway token
    document.setGateway tokens

/-! ## Starting over -/

/-- The skeleton in place of the document. -/
def reset (document : Document) : Logged Document :=
  ⟨skeleton document.interface,
    if document.isSkeleton then []
    else [.debug s!"Discarding previous configuration of {document.interface}"]⟩

/-- Switches DHCP on for the families whose digits occur among the characters. -/
def enableDhcp (entry : Entry) : List Char → Entry
  | [] => entry
  | '4' :: rest => enableDhcp (entry.withDhcp true .v4) rest
  | '6' :: rest => enableDhcp (entry.withDhcp true .v6) rest
  | _ :: rest => enableDhcp entry rest

/-- Starts over with nothing but DHCP, for each `4` and `6` among the protocols. -/
def setDhcp (document : Document) (protocols : String) : Logged Document := do
  let fresh ← document.reset
  return fresh.withEntry (enableDhcp fresh.entry protocols.toList)

/-- The CIDR form of each address token, removal tokens left out. -/
def cidrAll : (tokens : List String) → Except AddressError (List String)
  | [] => .ok []
  | token :: tokens =>
    if token = removeToken ∨ token = removeToken6 then cidrAll tokens
    else
      match Address.cidr token with
      | .error error => .error error
      | .ok address => (cidrAll tokens).map (address :: ·)

/-- Switches DHCP on as the options ask; options it does not know are skipped. -/
def applyOptions (entry : Entry) : (options : List String) → Logged Entry
  | [] => pure entry
  | option :: options =>
    if option = Family.v4.dhcpOption then applyOptions (entry.withDhcp true .v4) options
    else if option = Family.v6.dhcpOption then applyOptions (entry.withDhcp true .v6) options
    else do
      Logged.tell (.debug s!"Ignoring unknown option '{option}'")
      applyOptions entry options

/-- Starts over with the addresses, DHCP of a family being off unless an option switches it on. The
addresses are brought to CIDR form first, so that a bad netmask changes nothing. -/
def setIp (document : Document) (addresses options : List String) :
    Logged (Except AddressError Document) :=
  match cidrAll addresses with
  | .error error => pure (.error error)
  | .ok addresses => do
    let fresh ← document.reset
    let entry := { fresh.entry with addresses, dhcp4 := some false, dhcp6 := some false }
    let entry ← applyOptions entry options
    return .ok (fresh.withEntry entry)

/-! ## Routes -/

/-- The family whose routes a token removes. -/
def removal? (token : String) : Option Family :=
  if token = removeToken then some .v4 else if token = removeToken6 then some .v6 else none

/-- Removes the routes whose destination belongs to the family. -/
def removeRoutes (document : Document) (family : Family) : RouteUpdate × Document :=
  let routes := document.entry.routes.getD []
  let kept := routes.filter fun route => !family.owns route.destination
  (.removed family (routes.length - kept.length),
    document.withEntry { document.entry with routes := some kept })

/-- Appends a route that is not there yet. -/
def addRoute (document : Document) (route : Route) : RouteUpdate × Document :=
  let routes := document.entry.routes.getD []
  if routes.contains route then
    (.alreadyPresent route, document.withEntry { document.entry with routes := some routes })
  else
    (.added route, document.withEntry { document.entry with routes := some (routes ++ [route]) })

/-- Removes the routes of a family, or adds the route that the token describes. -/
def setRoute (document : Document) (token : String) :
    Except RouteError (RouteUpdate × Document) :=
  match removal? token with
  | some family => .ok (document.removeRoutes family)
  | none => (Route.parse token).map document.addRoute

end Document

end NetplanEditor
