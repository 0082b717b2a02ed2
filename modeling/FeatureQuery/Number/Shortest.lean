import FeatureQuery.Number.Decimal

/-!
# The shortest decimal form of a double

The numbers that round to a finite double form an interval around it: it reaches half way to the
neighbour on either side, and its ends belong to it when the double's significand is even, because
halves are rounded to the even one. `Magnitude.shortest` looks for the decimals `digits * 10 ^
exponent` of the largest exponent that lie in this interval, and takes the one nearest to the
double. The search begins above the double's leading digit. It ends, because every double is a whole
multiple of `10 ^ (-1074)`.
-/

namespace FeatureQuery

/-- Which of two equally near neighbours is taken. -/
inductive Tie where
  /-- The larger one. -/
  | up
  /-- The one with the even last digit. -/
  | even
  deriving DecidableEq

namespace Magnitude

/-- The numbers that round to a magnitude, in quarters of the unit. -/
structure Interval where
  /-- The lower end. -/
  lower : Nat
  /-- The upper end. -/
  upper : Nat
  /-- Whether the ends belong to the interval. -/
  closed : Bool

/-- The interval of the numbers that round to the magnitude. Below a power of two the neighbours
are half as far apart as above it. -/
def interval (m : Magnitude) : Interval :=
  let gap := 1 <<< gapExponent m.units
  let below := if m.units = 1 <<< m.units.log2 ∧ 1 < gap then gap else 2 * gap
  -- half a gap is two quarters of the unit for each unit of the gap
  { lower := 4 * m.units - below
    upper := 4 * m.units + 2 * gap
    closed := m.units / gap % 2 = 0 }

/-- Numerator of `10 ^ exponent` in quarters of the unit. -/
def tenNum (exponent : Int) : Nat := Nat.pow 10 exponent.toNat * (4 * unitsPerOne)

/-- Denominator of `10 ^ exponent` in quarters of the unit. -/
def tenDen (exponent : Int) : Nat := Nat.pow 10 (-exponent).toNat

/-- Whether `digits * 10 ^ exponent` lies in the interval. -/
def Interval.holds (i : Interval) (d : Decimal) : Bool :=
  let value := d.digits * tenNum d.exponent
  let lower := i.lower * tenDen d.exponent
  let upper := i.upper * tenDen d.exponent
  if i.closed then lower ≤ value && value ≤ upper else lower < value && value < upper

/-- The nearer of the two decimals with consecutive digits around the magnitude. -/
def nearer (tie : Tie) (m : Magnitude) (digits : Nat) (exponent : Int) : Nat :=
  let twice := 8 * m.units * tenDen exponent
  let middle := (2 * digits + 1) * tenNum exponent
  if twice < middle then digits
  else if middle < twice then digits + 1
  else match tie with
    | .up => digits + 1
    | .even => digits + digits % 2

/-- The decimal with the given exponent that rounds to the magnitude and is nearest to it. -/
def atExponent? (tie : Tie) (m : Magnitude) (exponent : Int) : Option Decimal :=
  let digits := 4 * m.units * tenDen exponent / tenNum exponent
  match m.interval.holds ⟨digits, exponent⟩, m.interval.holds ⟨digits + 1, exponent⟩ with
  | true, true => some ⟨m.nearer tie digits exponent, exponent⟩
  | true, false => some ⟨digits, exponent⟩
  | false, true => some ⟨digits + 1, exponent⟩
  | false, false => none

/-- Looks for a decimal with one exponent after the other, down to `10 ^ (-1074)`, where the
magnitude is exact. -/
def search (tie : Tie) (m : Magnitude) : Nat → Decimal
  | 0 => ⟨4 * m.units * tenDen (-1074) / tenNum (-1074), -1074⟩
  | n + 1 =>
    match m.atExponent? tie ((n : Int) - 1073) with
    | some d => d
    | none => m.search tie n

/-- The shortest decimal that rounds to the magnitude, and of those the nearest. -/
def shortest (tie : Tie) (m : Magnitude) : Decimal :=
  m.search tie ((Nat.toDigits 10 (m.units / unitsPerOne)).length + 1074)

end Magnitude

end FeatureQuery
