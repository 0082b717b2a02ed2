import FeatureQuery.Number.Double

/-!
# Decimals

A decimal is a whole number times a power of ten. `Double.ofDecimal` is the double nearest to it,
rounded once from the exact number. `Decimal.scale?` comes near it with rounded numbers alone: it
rounds the digits, and then multiplies or divides by rounded powers of ten. The two agree where
digits and power are doubles themselves and one operation is enough.
-/

namespace FeatureQuery

/-- The decimal number `digits * 10 ^ exponent`. -/
structure Decimal where
  /-- The significant digits, as a whole number. -/
  digits : Nat
  /-- The power of ten by which they are multiplied. -/
  exponent : Int
  deriving DecidableEq

/-- The double nearest to a decimal, with the sign applied. A decimal without digits is zero, and
the two guards keep a far exponent from being raised: there the answer is certain. -/
def Double.ofDecimal (negative : Bool) (d : Decimal) : Double :=
  if d.digits = 0 then ofRatio negative 0 1
  else if 400 < d.exponent then .infinite negative
  else if d.exponent < -(d.digits.log2 + 400) then ofRatio negative 0 1
  else ofRatio negative (d.digits * Nat.pow 10 d.exponent.toNat) (Nat.pow 10 (-d.exponent).toNat)

namespace Magnitude

/-- The greatest power of ten among the finite doubles. -/
def maxTenPower : Nat := 308

/-- The magnitude nearest to a power of ten, if it is no greater than the greatest among the finite
doubles. -/
def tenPower? (exponent : Nat) : Option Magnitude :=
  if exponent ≤ maxTenPower then ofRatio? (Nat.pow 10 exponent) 1 else none

/-- The magnitude divided so often by the greatest power of ten. Zero stays as it is. -/
def divideByMax? (m : Magnitude) : Nat → Option Magnitude
  | 0 => some m
  | times + 1 =>
    if m.units = 0 then some m
    else do
      let power ← tenPower? maxTenPower
      let quotient ← m.div? power
      quotient.divideByMax? times

end Magnitude

namespace Decimal

/-- The decimal, reached by multiplying or dividing its rounded digits by rounded powers of ten.
Every step is rounded, and so the result may lie beside the nearest double. There is none for a
decimal beyond the finite doubles. -/
def scale? (d : Decimal) : Option Magnitude := do
  let digits ← Magnitude.ofRatio? d.digits 1
  if digits.units = 0 then some digits
  else if 0 ≤ d.exponent then
    let power ← Magnitude.tenPower? d.exponent.toNat
    digits.mul? power
  else
    let places := (-d.exponent).toNat
    let nearby ← digits.divideByMax? (places / Magnitude.maxTenPower)
    let power ← Magnitude.tenPower? (places % Magnitude.maxTenPower)
    nearby.div? power

end Decimal

end FeatureQuery
