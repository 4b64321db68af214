import NetplanEditor.Family

/-!
Addresses and netmasks as typed on the command line, brought to the `<host>/<length>` form.

`prefixLength` turns a dotted netmask into the number of its one bits, and `cidr` uses it to bring
an address token to CIDR form: a bare address gets the length of its family, a dotted mask is
replaced by its length, and everything else stays as it is.
-/

namespace NetplanEditor

/-- What can be wrong with the text of an address. -/
inductive AddressError
  | unknownFamily (selector : String)
  /-- A piece of a dotted netmask is not a number. -/
  | invalidNetmask (netmask octet : String)
  deriving DecidableEq, Repr

namespace AddressError

def message : AddressError → String
  | unknownFamily selector => s!"Unknown protocol '{selector}': expected 4 or 6"
  | invalidNetmask netmask octet =>
    s!"Invalid netmask '{netmask}': octet '{octet}' is not a number"

end AddressError

def Family.ofSelector (selector : String) : Except AddressError Family :=
  match Family.ofSelector? selector with
  | some family => .ok family
  | none => .error (.unknownFamily selector)

namespace Address

/-- How many of the lowest `width` bits of `n` are one. -/
def countOnes : (width : Nat) → (n : Nat) → Nat
  | 0, _ => 0
  | width + 1, n => n % 2 + countOnes width (n / 2)

/-- The number of one bits in one piece of a netmask, blanks around it apart. -/
def octetOnes? (octet : String) : Option Nat :=
  (Text.readUnsigned32 (Text.trim octet)).map fun value => countOnes 32 value.toNat

/-- Adds up the one bits of the octets; the first that is not a number is an error. -/
def sumOnes (netmask : String) : (octets : List String) → Except AddressError Nat
  | [] => .ok 0
  | octet :: octets =>
    match octetOnes? octet with
    | none => .error (.invalidNetmask netmask octet)
    | some ones => (sumOnes netmask octets).map (ones + ·)

/-- The number of one bits in a dotted netmask, which need not be contiguous. The number is kept in
32 bits, where a larger one wraps. -/
def prefixLength (netmask : String) : Except AddressError Nat :=
  (sumOnes netmask (Text.pieces (· == '.') netmask)).map (· % (Text.maxUnsigned32 + 1))

/-- The address in CIDR form. Without a slash the family decides the length, and what holds no dot
counts as IPv6. A dotted mask after the first slash of an IPv4 token is replaced by its length. -/
def cidr (address : String) : Except AddressError String :=
  match Text.firstCut '/' address with
  | none =>
    let family := if Family.v4.owns address then Family.v4 else .v6
    .ok (address ++ "/" ++ Text.decimal family.hostLength)
  | some (host, mask) =>
    if Family.v4.owns address && Text.hasChar '.' mask then
      (prefixLength mask).map fun length => host ++ "/" ++ Text.decimal length
    else .ok address

end Address

end NetplanEditor
