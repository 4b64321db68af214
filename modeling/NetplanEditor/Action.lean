import NetplanEditor.Document.Edit

/-!
What can be asked of the editor: one change of a document, or one request that changes none.

A change is one of the four edits together with what it is to write. It can fail, because tokens of
addresses and routes can be malformed, and it then changes nothing.
-/

namespace NetplanEditor

inductive Edit
  /-- Start over with DHCP for each `4` and `6` among the protocols. -/
  | setDhcp (protocols : String)
  | setGateway (addresses : List String)
  /-- Start over with addresses, and with DHCP as the options ask. -/
  | setIp (addresses options : List String)
  /-- Add a route, or remove the routes of a family. -/
  | setRoute (token : String)
  deriving DecidableEq, Repr

inductive EditError
  | address (cause : AddressError)
  | route (cause : RouteError)
  deriving DecidableEq, Repr

def EditError.message : EditError → String
  | address cause => cause.message
  | route cause => cause.message

/-- The document after a change, and what there is to report about it. -/
def Edit.apply (document : Document) : Edit → Logged (Except EditError Document)
  | setDhcp protocols => do return .ok (← document.setDhcp protocols)
  | setGateway addresses => do return .ok (← document.setGateway addresses)
  | setIp addresses options => do return (← document.setIp addresses options).mapError .address
  | setRoute token =>
    match document.setRoute token with
    | .error error => pure (.error (.route error))
    | .ok (update, document) => ⟨.ok document, [update.event]⟩

inductive Action
  /-- Report whether DHCP is on for a family. -/
  | getDhcp (family : Family)
  /-- Put what is on disk into effect again. -/
  | restart
  /-- Change the document and put it into effect. -/
  | change (edit : Edit)
  deriving DecidableEq, Repr

/-- The kinds of actions, by which they are asked for. -/
inductive ActionKind
  | getDhcp
  | restart
  | setDhcp
  | setGateway
  | setIp
  | setRoute
  deriving DecidableEq, Repr

def ActionKind.name : ActionKind → String
  | getDhcp => "get_dhcp"
  | restart => "restart"
  | setDhcp => "set_dhcp"
  | setGateway => "set_gateway"
  | setIp => "set_ip"
  | setRoute => "set_route"

def ActionKind.all : List ActionKind :=
  [getDhcp, restart, setDhcp, setGateway, setIp, setRoute]

/-- The kind of action with a name. -/
def ActionKind.ofName? (name : String) : Option ActionKind := all.find? (·.name == name)

def Action.kind : Action → ActionKind
  | getDhcp _ => .getDhcp
  | restart => .restart
  | change (.setDhcp _) => .setDhcp
  | change (.setGateway _) => .setGateway
  | change (.setIp ..) => .setIp
  | change (.setRoute _) => .setRoute

def Action.name (action : Action) : String := action.kind.name

end NetplanEditor
