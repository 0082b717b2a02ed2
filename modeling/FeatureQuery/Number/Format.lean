import FeatureQuery.Number.Shortest

/-!
# Numbers as text

A finite double is written with the fewest digits that read back as the same double. A
`NumberFormat` decides the rest: in which range of magnitudes the decimal point stands among the
digits, whether a whole number shows a point, which of two equally near digits is taken, and how the
doubles that are not finite are spelled.
-/

namespace FeatureQuery

/-- How doubles are written. -/
structure NumberFormat where
  /-- Whether a number whose leading digit stands at this power of ten is written with the point
  among its digits, and not with an exponent. -/
  positional : Int → Bool
  /-- Whether a whole number written without an exponent ends in `.0`. -/
  wholeFraction : Bool
  /-- Which of two equally near shortest forms is taken. -/
  tie : Tie

namespace Decimal

/-- The digits with the decimal point among them. -/
def positional (wholeFraction : Bool) (d : Decimal) : String :=
  let digits := Nat.toDigits 10 d.digits
  String.ofList <|
    if 0 ≤ d.exponent then
      digits ++ List.replicate d.exponent.toNat '0' ++ (if wholeFraction then ['.', '0'] else [])
    else
      let places := (-d.exponent).toNat
      if places < digits.length then
        digits.take (digits.length - places) ++ '.' :: digits.drop (digits.length - places)
      else
        '0' :: '.' :: List.replicate (places - digits.length) '0' ++ digits

/-- The power of ten at which the leading digit stands. -/
def leading (d : Decimal) : Int := d.exponent + (Nat.toDigits 10 d.digits).length - 1

/-- The leading digit, the other digits after a point, and the exponent with its sign. -/
def scientific (d : Decimal) : String :=
  let digits := Nat.toDigits 10 d.digits
  let exponent := d.leading
  String.ofList <|
    digits.take 1 ++ (if digits.length ≤ 1 then [] else '.' :: digits.drop 1) ++
      'e' :: (if exponent < 0 then '-' else '+') :: Nat.toDigits 10 exponent.natAbs

end Decimal

namespace NumberFormat

/-- A magnitude as text. -/
def magnitude (format : NumberFormat) (m : Magnitude) : String :=
  if m.units = 0 then
    if format.wholeFraction then "0.0" else "0"
  else
    let d := m.shortest format.tie
    if format.positional d.leading then d.positional format.wholeFraction else d.scientific

/-- The sign of a number as text. -/
def sign (negative : Bool) : String := if negative then "-" else ""

/-- A double as text. -/
def text (format : NumberFormat) : Double → String
  | .finite negative m => sign negative ++ format.magnitude m
  | .infinite negative => sign negative ++ "inf"
  | .nan => "NaN"

/-- Attribute values are shown without exponents and without a point in whole numbers; of two
equally near forms the larger is taken. -/
def plain : NumberFormat where
  positional := fun _ => true
  wholeFraction := false
  tie := .up

/-- In JSON a double always shows that it is one: `1.0`. Numbers below `10 ^ (-5)` and from
`10 ^ 16` on have an exponent, and of two equally near forms the even one is taken. -/
def json : NumberFormat where
  positional := fun leading => -5 ≤ leading && leading ≤ 15
  wholeFraction := true
  tie := .even

end NumberFormat

/-- The text that shows a double as an attribute value. -/
def Double.plainText (d : Double) : String := NumberFormat.plain.text d

end FeatureQuery
