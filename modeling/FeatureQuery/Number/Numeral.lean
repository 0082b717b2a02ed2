import FeatureQuery.Number.Double
import FeatureQuery.Text.Blank

/-!
# Decimal numerals

The numbers of the query language: an optional minus sign, then digits with at most one point
before, among or after them, and at least one digit. Blanks around the numeral do not count, and
nothing else may stand in the text. `Numeral.read?` reads the parts and `Numeral.value` is the
double nearest to the number they denote.
-/

namespace FeatureQuery

/-- The parts of a decimal numeral. -/
structure Numeral where
  /-- Whether it begins with a minus sign. -/
  negative : Bool
  /-- The digits before the point. -/
  whole : List Char
  /-- The digits after the point. -/
  fraction : List Char
  deriving DecidableEq

namespace Numeral

/-- The numeral without its sign. -/
def readUnsigned? (negative : Bool) (cs : List Char) : Option Numeral :=
  let whole := cs.takeWhile Char.isDigit
  match cs.dropWhile Char.isDigit with
  | [] => if whole = [] then none else some ⟨negative, whole, []⟩
  | c :: fraction =>
    if c = '.' ∧ fraction.all Char.isDigit ∧ whole ++ fraction ≠ [] then
      some ⟨negative, whole, fraction⟩
    else
      none

/-- The numeral that makes up the whole text. -/
def read? (cs : List Char) : Option Numeral :=
  match Text.trim cs with
  | '-' :: rest => readUnsigned? true rest
  | rest => readUnsigned? false rest

/-- The double nearest to the number. -/
def value (n : Numeral) : Double :=
  Double.ofRatio n.negative (Nat.ofDigitChars 10 (n.whole ++ n.fraction) 0)
    (Nat.pow 10 n.fraction.length)

end Numeral

/-- The number that a text denotes, if it is a decimal numeral. -/
def readNumber? (s : String) : Option Double := (Numeral.read? s.toList).map Numeral.value

end FeatureQuery
