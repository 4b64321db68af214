import NetplanEditor.Text.Numeral
import NetplanEditor.Yaml.Binary64

/-!
What a plain scalar means.

A plain scalar is null, a boolean, an integer, a floating-point number, or else a text, in this
order of precedence. Integers come in four bases and have to fit in 64 bits, signed or unsigned.
One that only fits in 128 bits is still an integer, but no value can hold it; one that does not even
fit there is read as a floating-point number.
-/

namespace NetplanEditor.Yaml

inductive Meaning
  | null
  | bool (value : Bool)
  /-- An integer of 64 bits, signed or unsigned. -/
  | int (value : Int)
  /-- An integer too large for 64 bits that fits in 128. -/
  | wide
  | float (value : Binary64)
  | text
  deriving DecidableEq, Repr

namespace Plain

open Text (readDigits)

/-- The spellings of null, the empty one apart. -/
def isNullWord (cs : List Char) : Bool :=
  cs == ['~'] || cs == "null".toList || cs == "Null".toList || cs == "NULL".toList

def isNull (cs : List Char) : Bool := cs.isEmpty || isNullWord cs

/-- The boolean that a scalar stands for. -/
def bool? (cs : List Char) : Option Bool :=
  if cs == "true".toList || cs == "True".toList || cs == "TRUE".toList then some true
  else if cs == "false".toList || cs == "False".toList || cs == "FALSE".toList then some false
  else none

/-- Without a sign at its start the text would be a run of at least two digits that starts with
zero. Such a text is neither an integer nor a floating-point number. -/
def isZeroLed (cs : List Char) : Bool :=
  let digits :=
    match cs with
    | '-' :: rest | '+' :: rest => rest
    | rest => rest
  match digits with
  | '0' :: d :: ds => (d :: ds).all Char.isDigit
  | _ => false

/-- The value of an unsigned numeral in the base that its start shows. -/
def magnitude? : List Char → Option Nat
  | '0' :: 'x' :: ds => readDigits 16 ds
  | '0' :: 'o' :: ds => readDigits 8 ds
  | '0' :: 'b' :: ds => readDigits 2 ds
  | ds => readDigits 10 ds

/-- An integer as it is written: its sign and its magnitude. -/
structure Numeral where
  negative : Bool
  magnitude : Nat
  deriving DecidableEq, Repr

/-- The integer numeral that a scalar is, of any size. -/
def numeral? (cs : List Char) : Option Numeral :=
  if isZeroLed cs then none
  else
    match cs with
    | '-' :: rest => (magnitude? rest).map (⟨true, ·⟩)
    | '+' :: rest => (magnitude? rest).map (⟨false, ·⟩)
    | rest => (magnitude? rest).map (⟨false, ·⟩)

/-- The meaning of an integer numeral, if 128 bits can hold it. -/
def Numeral.meaning? (n : Numeral) : Option Meaning :=
  if n.negative then
    if n.magnitude ≤ Nat.pow 2 63 then some (.int (-(n.magnitude : Int)))
    else if n.magnitude ≤ Nat.pow 2 127 then some .wide
    else none
  else
    if n.magnitude < UInt64.size then some (.int n.magnitude)
    else if n.magnitude < Nat.pow 2 128 then some .wide
    else none

/-- The value of a scalar that is an unsigned integer of 64 bits. -/
def unsigned64? (cs : List Char) : Option Nat :=
  match numeral? cs with
  | some ⟨false, magnitude⟩ => if magnitude < UInt64.size then some magnitude else none
  | _ => none

/-! ## Floating-point numbers -/

/-- The digits that `cs` starts with, and the rest. -/
def spanDigits (cs : List Char) : List Char × List Char := cs.span Char.isDigit

/-- The exponent that a numeral ends with: nothing, or the letter `e`, a sign and digits. -/
def exponent? : List Char → Option Int
  | [] => some 0
  | e :: cs =>
    if e = 'e' ∨ e = 'E' then
      match cs with
      | '-' :: ds => (readDigits 10 ds).map fun n => -(n : Int)
      | '+' :: ds => (readDigits 10 ds).map fun n => (n : Int)
      | ds => (readDigits 10 ds).map fun n => (n : Int)
    else none

/-- The value of an unsigned decimal numeral, `negative` being its sign. At least one digit has to
stand on one side of the point. -/
def decimal? (negative : Bool) (cs : List Char) : Option Binary64 :=
  let (whole, rest) := spanDigits cs
  let (part, rest) :=
    match rest with
    | '.' :: more => spanDigits more
    | _ => ([], rest)
  match readDigits 10 (whole ++ part), exponent? rest with
  | some digits, some exponent =>
    let count := (Nat.toDigits 10 digits).length
    some (.ofDecimal negative digits count (exponent - part.length))
  | _, _ => none

/-- The number is one that a numeral can stand for. -/
def finite? : Binary64 → Option Binary64
  | .finite negative m e => some (.finite negative m e)
  | _ => none

def isInfinityWord (cs : List Char) : Bool :=
  cs == ".inf".toList || cs == ".Inf".toList || cs == ".INF".toList

/-- The names of what is not a number. -/
def isNanWord (cs : List Char) : Bool :=
  cs == ".nan".toList || cs == ".NaN".toList || cs == ".NAN".toList

/-- A floating-point number without a plus sign. -/
def unsignedFloat? (cs : List Char) : Option Binary64 :=
  if isInfinityWord cs then some (.infinite false)
  else
    match cs with
    | '-' :: rest =>
      if isInfinityWord rest then some (.infinite true)
      else (decimal? true rest).bind finite?
    | _ => (decimal? false cs).bind finite?

/-- The floating-point number that a scalar stands for. A numeral too large for a finite value
stands for none. -/
def float? (cs : List Char) : Option Binary64 :=
  if isNanWord cs then some .notANumber
  else
    match cs with
    | '+' :: '-' :: _ => none
    | '+' :: rest => unsignedFloat? rest
    | _ => unsignedFloat? cs

def meaning (cs : List Char) : Meaning :=
  if isNull cs then .null
  else
    match bool? cs with
    | some b => .bool b
    | none =>
      match (numeral? cs).bind Numeral.meaning? with
      | some m => m
      | none =>
        if isZeroLed cs then .text
        else
          match float? cs with
          | some f => .float f
          | none => .text

end Plain

end NetplanEditor.Yaml
