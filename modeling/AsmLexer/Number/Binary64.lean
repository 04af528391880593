/-!
# Binary floating point in 64 bits

A decimal number is rounded to the nearest number with a significand of 53 bits, a half to the even
one, in exact arithmetic on whole numbers (`Binary64.ofDecimal`). Such a number is written with the
fewest decimal digits that round back to it (`Binary64.shortest`): for one digit, two digits and so
on, the two neighbours of the number on that decimal grid are tested against the interval of all
reals that round to it.
-/

set_option autoImplicit false

namespace AsmLexer

/-- A floating-point number: a finite one is its significand times a power of two. -/
inductive Binary64 where
  | nan
  | infinite (negative : Bool)
  | finite (negative : Bool) (significand : Nat) (exponent : Int)
deriving DecidableEq

/-- A fraction times a power of the base, as a fraction. -/
def scaleFraction (fraction : Nat × Nat) (base : Nat) (power : Int) : Nat × Nat :=
  if 0 ≤ power then (fraction.1 * base.pow power.toNat, fraction.2)
  else (fraction.1, fraction.2 * base.pow (-power).toNat)

/-- A fraction rounded to the nearest whole number, a half to the even one. -/
def roundFraction (fraction : Nat × Nat) : Nat :=
  let whole := fraction.1 / fraction.2
  let twice := 2 * (fraction.1 % fraction.2)
  if twice < fraction.2 ∨ (twice = fraction.2 ∧ whole % 2 = 0) then whole else whole + 1

/-- How many decimal digits a number has. -/
def decimalLength (n : Nat) : Nat :=
  (Nat.toDigits 10 n).length

/-- The power of ten just above a fraction. -/
def decimalMagnitude (fraction : Nat × Nat) : Int :=
  if fraction.2 ≤ fraction.1 then decimalLength (fraction.1 / fraction.2)
  else
    let zeros := (List.range 400).find? fun z => fraction.2 ≤ fraction.1 * Nat.pow 10 z
    1 - (zeros.getD 400 : Nat)

namespace Binary64

/-- The least exponent of a finite number. -/
def leastExponent : Int := -1074

/-- The greatest exponent of a finite number. -/
def greatestExponent : Int := 971

/-- The number nearest to `digits` times a power of ten. -/
def ofDecimal (negative : Bool) (digits : Nat) (power : Int) : Binary64 :=
  let magnitude := decimalLength digits + power
  if digits = 0 ∨ magnitude < -400 then .finite negative 0 leastExponent
  else if 400 < magnitude then .infinite negative
  else
    let value := scaleFraction (digits, 1) 10 power
    let guess : Int := value.1.log2 - value.2.log2 - 53
    let scaled := scaleFraction value 2 (-guess)
    let exponent :=
      max leastExponent (if scaled.1 / scaled.2 < Nat.pow 2 53 then guess else guess + 1)
    let significand := roundFraction (scaleFraction value 2 (-exponent))
    let (significand, exponent) :=
      if significand = Nat.pow 2 53 then (Nat.pow 2 52, exponent + 1) else (significand, exponent)
    if greatestExponent < exponent then .infinite negative
    else .finite negative significand exponent

/-- The fewest decimal digits, and their power of ten, that round to a positive number. -/
def shortest (significand : Nat) (exponent : Int) : Nat × Int :=
  let value := scaleFraction (significand, 1) 2 exponent
  let below := if significand = Nat.pow 2 52 ∧ leastExponent < exponent then 1 else 2
  let low := scaleFraction (4 * significand - below, 4) 2 exponent
  let high := scaleFraction (4 * significand + 2, 4) 2 exponent
  let closed := significand % 2 = 0
  let magnitude := decimalMagnitude value
  let onGrid (count : Nat) : Option (Nat × Int) :=
    let power := magnitude - count
    let value := scaleFraction value 10 (-power)
    let low := scaleFraction low 10 (-power)
    let high := scaleFraction high 10 (-power)
    let within (n : Nat) : Bool :=
      if closed then low.1 ≤ n * low.2 ∧ n * high.2 ≤ high.1
      else low.1 < n * low.2 ∧ n * high.2 < high.1
    let floor := value.1 / value.2
    if within floor ∧ within (floor + 1) then some (roundFraction value, power)
    else if within floor then some (floor, power)
    else if within (floor + 1) then some (floor + 1, power)
    else none
  ((List.range 17).findSome? fun count => onGrid (count + 1)).getD (0, 0)

/-- Decimal digits with a point: positional from a ten-thousandth up to below ten to the sixteenth,
with an exponent of at least two digits outside, and always with a digit after a positional point.
-/
def decimalText (digits : Nat) (power : Int) : String :=
  let all := Nat.toDigits 10 digits
  let shown := (all.reverse.dropWhile (· = '0')).reverse
  let point : Int := all.length + power
  String.ofList <|
    if point ≤ -4 ∨ 16 < point then
      let exponent := point - 1
      let size := Nat.toDigits 10 exponent.natAbs
      shown.take 1 ++ (if shown.length = 1 then [] else '.' :: shown.drop 1) ++
        ['e', if exponent < 0 then '-' else '+'] ++ (if size.length = 1 then '0' :: size else size)
    else if point ≤ 0 then '0' :: '.' :: List.replicate (-point).toNat '0' ++ shown
    else if shown.length ≤ point then
      shown ++ List.replicate (point - shown.length).toNat '0' ++ ['.', '0']
    else shown.take point.toNat ++ '.' :: shown.drop point.toNat

/-- A floating-point number in decimal. -/
def text : Binary64 → String
  | .nan => "nan"
  | .infinite negative => if negative then "-inf" else "inf"
  | .finite negative significand exponent =>
    let sign := if negative then "-" else ""
    if significand = 0 then sign ++ "0.0"
    else
      let (digits, power) := shortest significand exponent
      sign ++ decimalText digits power

end Binary64

end AsmLexer
