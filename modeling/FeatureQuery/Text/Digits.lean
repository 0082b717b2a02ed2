/-!
# Whole numbers as text

Whole numbers are written with decimal digits and without leading zeros, negative ones after a
hyphen.
-/

namespace FeatureQuery.Text

/-- A whole number that is not negative. -/
def ofNat (n : Nat) : String := String.ofList (Nat.toDigits 10 n)

/-- A whole number, after a hyphen if it is negative. -/
def ofInt (n : Int) : String := (if n < 0 then "-" else "") ++ ofNat n.natAbs

end FeatureQuery.Text
