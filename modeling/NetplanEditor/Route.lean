import NetplanEditor.Text.Blank
import NetplanEditor.Text.Pieces
import NetplanEditor.Text.Numeral

/-!
Static routes and the compact tokens that describe them.

A token packs destination, gateway and an optional metric into one argument,
`<to>=<via>[m<metric>]`. An equals sign and the letter `m` separate alike, so the pieces are what
counts and not which separator stands between them.
-/

namespace NetplanEditor

/-- A static route. Two routes that differ only in their metric are different routes. -/
structure Route where
  destination : String
  gateway : String
  metric : Option UInt32
  deriving DecidableEq, Repr

/-- What can be wrong with a route token; each cause carries the token as it was typed. -/
inductive RouteError
  | missingDestination (token : String)
  /-- There is no second piece, or it is empty. -/
  | missingGateway (token : String)
  /-- The third piece is not an unsigned numeral. -/
  | invalidMetric (token metric : String)
  | trailingSegments (token : String)
  deriving DecidableEq, Repr

namespace RouteError

def message : RouteError → String
  | missingDestination token => s!"Invalid route '{token}': missing destination"
  | missingGateway token =>
    s!"Invalid route '{token}': missing gateway (expected <to>=<via>[m<metric>])"
  | invalidMetric token metric => s!"Invalid route '{token}': metric '{metric}' is not a number"
  | trailingSegments token => s!"Invalid route '{token}': unexpected segments after metric"

end RouteError

namespace Route

/-- The characters between the pieces of a token. -/
def isSeparator (c : Char) : Bool := c == 'm' || c == '='

/-- The metric a third piece stands for; an empty piece stands for none. -/
def readMetric (token metric : String) : Except RouteError (Option UInt32) :=
  if metric.isEmpty then .ok none
  else
    match Text.readUnsigned32 metric with
    | some value => .ok (some value)
    | none => .error (.invalidMetric token metric)

/-- The route made of the pieces, `metric` being the third where there is one. -/
def ofPieces (token destination gateway : String) (metric : Option String) :
    Except RouteError Route :=
  if destination.isEmpty then .error (.missingDestination token)
  else if gateway.isEmpty then .error (.missingGateway token)
  else
    match metric with
    | none => .ok ⟨destination, gateway, none⟩
    | some text => (readMetric token text).map fun value => ⟨destination, gateway, value⟩

def parse (token : String) : Except RouteError Route :=
  match Text.pieces isSeparator (Text.trim token) with
  | [destination, gateway] => ofPieces token destination gateway none
  | [destination, gateway, metric] => ofPieces token destination gateway (some metric)
  | [] | [_] => .error (.missingGateway token)
  | _ => .error (.trailingSegments token)

def describe (route : Route) : String :=
  let hop := route.destination ++ " via " ++ route.gateway
  match route.metric with
  | none => hop
  | some metric => hop ++ " metric " ++ Text.decimal metric.toNat

end Route

end NetplanEditor
