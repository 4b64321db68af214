import NetplanEditor.Text.Blank
import NetplanEditor.Text.Pieces
import NetplanEditor.Text.Numeral

/-!
The two address families, and which text belongs to which.

Families are told apart by their punctuation alone: a dot makes an address IPv4 and a colon makes
it IPv6. Nothing here checks that a text is a well-formed address.
-/

namespace NetplanEditor

inductive Family
  | v4
  | v6
  deriving DecidableEq, Repr

namespace Family

/-- The family a protocol selector names, whatever its case and the blanks around it. -/
def ofSelector? (selector : String) : Option Family :=
  match Text.lower (Text.trim selector) with
  | "4" | "v4" | "ipv4" | "inet" => some .v4
  | "6" | "v6" | "ipv6" | "inet6" => some .v6
  | _ => none

/-- The character that marks the addresses of a family. -/
def mark : Family → Char
  | .v4 => '.'
  | .v6 => ':'

/-- The text holds the mark of the family. An IPv6 address with an IPv4 tail belongs to both. -/
def owns (family : Family) (address : String) : Bool := Text.hasChar family.mark address

/-- The length of the network part given to an address that comes without one. -/
def hostLength : Family → Nat
  | .v4 => 32
  | .v6 => 64

/-- The key under which an interface keeps the default gateway of the family. -/
def gatewayKey : Family → String
  | .v4 => "gateway4"
  | .v6 => "gateway6"

/-- The key under which an interface keeps the DHCP flag of the family. -/
def dhcpKey : Family → String
  | .v4 => "dhcp4"
  | .v6 => "dhcp6"

/-- The name of the family in messages. -/
def name : Family → String
  | .v4 => "IPv4"
  | .v6 => "IPv6"

end Family

end NetplanEditor
