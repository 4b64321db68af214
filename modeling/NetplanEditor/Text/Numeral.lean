/-!
Decimal numerals and letters of one case, as the command line and the configuration files write
them.

An unsigned numeral is an optional plus sign and at least one ASCII digit; leading zeros are
allowed. `readUnsigned32` also asks that the value fits in 32 bits.
-/

namespace NetplanEditor.Text

/-- The value of an ASCII decimal digit. -/
def digitValue? (c : Char) : Option Nat :=
  if '0' ≤ c ∧ c ≤ '9' then some (c.toNat - '0'.toNat) else none

/-- The value of a digit in a base up to sixteen, letters of either case standing for ten and
above. -/
def radixDigit? (radix : Nat) (c : Char) : Option Nat :=
  let value :=
    if '0' ≤ c ∧ c ≤ '9' then some (c.toNat - '0'.toNat)
    else if 'a' ≤ c ∧ c ≤ 'f' then some (c.toNat - 'a'.toNat + 10)
    else if 'A' ≤ c ∧ c ≤ 'F' then some (c.toNat - 'A'.toNat + 10)
    else none
  value.filter (· < radix)

/-- Continues the numeral `value` with the digits of `cs`. -/
def readDigitsFrom (radix value : Nat) : List Char → Option Nat
  | [] => some value
  | c :: cs => (radixDigit? radix c).bind fun d => readDigitsFrom radix (value * radix + d) cs

/-- The value of a non-empty run of digits. -/
def readDigits (radix : Nat) : List Char → Option Nat
  | [] => none
  | c :: cs => readDigitsFrom radix 0 (c :: cs)

/-- The text after a plus sign, or the whole text where there is none. -/
def afterPlus : List Char → List Char
  | '+' :: cs => cs
  | cs => cs

/-- The largest value an unsigned 32-bit number takes. -/
def maxUnsigned32 : Nat := 4294967295

/-- The value of an unsigned numeral that fits in 32 bits. -/
def readUnsigned32 (s : String) : Option UInt32 :=
  ((readDigits 10 (afterPlus s.toList)).filter (· ≤ maxUnsigned32)).map UInt32.ofNat

/-- The decimal digits of a number, without leading zeros. -/
def decimal (n : Nat) : String := String.ofList (Nat.toDigits 10 n)

/-- The decimal digits of an integer, after a minus sign if it is negative. -/
def decimalInt (i : Int) : String :=
  match i with
  | .ofNat n => decimal n
  | .negSucc n => "-" ++ decimal (n + 1)

/-- The lower-case letter of an ASCII capital; every other character stands for itself. -/
def lowerChar (c : Char) : Char :=
  if 'A' ≤ c ∧ c ≤ 'Z' then Char.ofNat (c.toNat + 32) else c

/-- The text with its ASCII capitals lowered. -/
def lower (s : String) : String := String.ofList (s.toList.map lowerChar)

end NetplanEditor.Text
