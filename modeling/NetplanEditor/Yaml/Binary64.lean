/-!
Floating-point numbers of 64 bits, as exact values.

A finite number is a sign and `m * 2 ^ e` with natural `m`; the pair is kept in its one canonical
form, with `m` below `2 ^ 53` and as large as the least exponent allows. `nearest` rounds a quotient
of natural numbers to the nearest such value, a tie going to the even one, and `shortest` finds the
fewest decimal digits that round back. Both compute with natural numbers only.
-/

namespace NetplanEditor.Yaml

/-- A floating-point number of 64 bits. There is only one value that is not a number. -/
inductive Binary64
  /-- The number `m * 2 ^ e`, negated if `negative`. -/
  | finite (negative : Bool) (m : Nat) (e : Int)
  | infinite (negative : Bool)
  | notANumber
  deriving DecidableEq, Repr

namespace Binary64

def minExponent : Int := -1074

def maxExponent : Int := 971

/-- The quotient rounded to the nearest natural number, a tie to the even one. -/
def roundDiv (num den : Nat) : Nat :=
  let q := num / den
  let r := num % den
  if 2 * r < den then q else if den < 2 * r then q + 1 else q + q % 2

/-- `num / den` divided by `2 ^ e`, as a quotient of natural numbers. -/
def scaleBy (num den : Nat) (e : Int) : Nat × Nat :=
  if 0 ≤ e then (num, den * Nat.pow 2 e.toNat) else (num * Nat.pow 2 (-e).toNat, den)

/-- The exponent at which `num / den` has 53 binary digits before the point, or the least exponent
where it is too small for that. -/
def exponentFor (num den : Nat) : Int :=
  let e : Int := (num.log2 : Int) - (den.log2 : Int) - 53
  let (scaledNum, scaledDen) := scaleBy num den e
  max minExponent (if scaledNum < scaledDen * Nat.pow 2 53 then e else e + 1)

/-- The value nearest to `num / den`, a tie going to the even one. Quotients too large for a finite
value give infinity. -/
def nearest (negative : Bool) (num den : Nat) : Binary64 :=
  if num = 0 then .finite negative 0 minExponent
  else
    let e := exponentFor num den
    let (scaledNum, scaledDen) := scaleBy num den e
    let m := roundDiv scaledNum scaledDen
    let (m, e) := if m = Nat.pow 2 53 then (Nat.pow 2 52, e + 1) else (m, e)
    if maxExponent < e then .infinite negative else .finite negative m e

/-- A decimal exponent beyond which a numeral is too large for a finite value, or too small for one
other than zero, whatever its digits. -/
def decimalLimit : Int := 400

/-- The value nearest to `digits * 10 ^ exponent`, where `digits` has `count` decimal digits. -/
def ofDecimal (negative : Bool) (digits count : Nat) (exponent : Int) : Binary64 :=
  if digits = 0 then .finite negative 0 minExponent
  else if decimalLimit < exponent + count then .infinite negative
  else if exponent + count < -decimalLimit then .finite negative 0 minExponent
  else if 0 ≤ exponent then nearest negative (digits * Nat.pow 10 exponent.toNat) 1
  else nearest negative digits (Nat.pow 10 (-exponent).toNat)

/-! ## Shortest digits -/

/-- The numbers that round to `m * 2 ^ e`: the value and the two ends of the interval, over one
denominator. The ends belong to it where `m` is even. -/
structure Interval where
  value : Nat
  low : Nat
  high : Nat
  den : Nat
  closed : Bool

/-- The interval around `m * 2 ^ e`. Below a power of two the values lie twice as dense. -/
def interval (m : Nat) (e : Int) : Interval :=
  let below := if m = Nat.pow 2 52 ∧ minExponent < e then 1 else 2
  let up := if 2 ≤ e then Nat.pow 2 (e - 2).toNat else 1
  let den := if 2 ≤ e then 1 else Nat.pow 2 (2 - e).toNat
  ⟨4 * m * up, (4 * m - below) * up, (4 * m + 2) * up, den, m % 2 == 0⟩

/-- The candidate `c * 10 ^ k` lies in the interval. -/
def Interval.holds (i : Interval) (c : Nat) (k : Int) : Bool :=
  let (unit, scale) :=
    if 0 ≤ k then (i.den * Nat.pow 10 k.toNat, 1) else (i.den, Nat.pow 10 (-k).toNat)
  let at' := c * unit
  if i.closed then i.low * scale ≤ at' && at' ≤ i.high * scale
  else i.low * scale < at' && at' < i.high * scale

/-- The best multiple of `10 ^ k` in the interval: of the two around the value the one that lies in
the interval, the nearer if both do, the even one if they are equally near. -/
def Interval.onGrid? (i : Interval) (k : Int) : Option Nat :=
  let (unit, scale) :=
    if 0 ≤ k then (i.den * Nat.pow 10 k.toNat, 1) else (i.den, Nat.pow 10 (-k).toNat)
  let below := i.value * scale / unit
  let rest := i.value * scale % unit
  let nearer :=
    if 2 * rest < unit then below else if unit < 2 * rest then below + 1 else below + below % 2
  let farther := if nearer = below then below + 1 else below
  if nearer ≠ 0 ∧ i.holds nearer k then some nearer
  else if farther ≠ 0 ∧ i.holds farther k then some farther
  else none

/-- The place of the first digit of `num / den`: the number is below `10 ^ p` and not below
`10 ^ (p - 1)`. -/
def magnitude (num den : Nat) : Int :=
  if den ≤ num then ((Nat.toDigits 10 (num / den)).length : Int)
  else 1 - leading 400 0
where
  /-- How often the number has to be multiplied by ten to reach one. -/
  leading : (fuel : Nat) → Nat → Int
    | 0, count => count
    | fuel + 1, count => if den ≤ num * Nat.pow 10 count then count else leading fuel (count + 1)

/-- Tries grids of more and more digits, `fuel` of them, and gives the first hit with its exponent.
Seventeen digits always tell two values apart. -/
def Interval.search (i : Interval) (place : Int) : (fuel count : Nat) → Nat × Int
  | 0, _ => (i.value, 0)
  | fuel + 1, count =>
    match i.onGrid? (place - count) with
    | some c => (c, place - count)
    | none => i.search place fuel (count + 1)

/-- Moves the zeros at the end of the digits into the exponent. -/
def dropZeros : (fuel : Nat) → Nat → Int → Nat × Int
  | 0, c, k => (c, k)
  | fuel + 1, c, k => if c ≠ 0 ∧ c % 10 = 0 then dropZeros fuel (c / 10) (k + 1) else (c, k)

/-- The fewest decimal digits `c` and the exponent `k` with `c * 10 ^ k` rounding to `m * 2 ^ e`; of
several the nearest. -/
def shortest (m : Nat) (e : Int) : Nat × Int :=
  if m = 0 then (0, 0)
  else
    let i := interval m e
    let (c, k) := i.search (magnitude i.value i.den) 17 1
    dropZeros 17 c k

/-! ## Written form -/

/-- The digits with the point where the exponent puts it: positional while at most sixteen digits
stand before the point or at most four zeros after it, and with an exponent otherwise. -/
def layout (c : Nat) (k : Int) : String :=
  let digits := Nat.toDigits 10 c
  let count := digits.length
  let point := (count : Int) + k
  let zeros (n : Int) := List.replicate n.toNat '0'
  String.ofList <|
    if 0 ≤ k ∧ point ≤ 16 then digits ++ zeros k ++ ['.', '0']
    else if 0 < point ∧ point ≤ 16 then
      digits.take point.toNat ++ '.' :: digits.drop point.toNat
    else if -5 < point ∧ point ≤ 0 then '0' :: '.' :: zeros (-point) ++ digits
    else
      let exponent := point - 1
      let exponentText :=
        'e' :: (if exponent < 0 then ['-'] else []) ++ Nat.toDigits 10 exponent.natAbs
      match digits with
      | [] => exponentText
      | [d] => d :: exponentText
      | d :: ds => d :: '.' :: ds ++ exponentText

/-- The text that a number is written as. -/
def render : Binary64 → String
  | .notANumber => ".nan"
  | .infinite negative => if negative then "-.inf" else ".inf"
  | .finite negative m e =>
    let (c, k) := shortest m e
    (if negative then "-" else "") ++ layout c k

/-- The two numbers are equal in value: zeros of both signs are equal, and what is not a number
equals itself. -/
def same : Binary64 → Binary64 → Bool
  | .finite n m e, .finite n' m' e' => (m == 0 && m' == 0) || (n == n' && m == m' && e == e')
  | a, b => a == b

end Binary64

end NetplanEditor.Yaml
