import FeatureQuery.Entries
import FeatureQuery.Number.Double

/-!
# JSON values

Objects keep their members in order, and whole numbers within 64 bits are kept apart from doubles,
so that a value can be written back as it was read.
-/

namespace FeatureQuery

/-- A number in a JSON text. -/
inductive JsonNumber where
  /-- A whole number that fits into 64 bits, with or without a sign. -/
  | whole (n : Int)
  /-- Any other number. -/
  | double (d : Double)
  deriving DecidableEq

/-- The double nearest to the number. -/
def JsonNumber.toDouble : JsonNumber → Double
  | .whole n => Double.ofInt n
  | .double d => d

/-- A JSON value. -/
inductive Json where
  /-- The value `null`. -/
  | null
  /-- A truth value. -/
  | bool (b : Bool)
  /-- A number. -/
  | number (n : JsonNumber)
  /-- A text. -/
  | string (s : String)
  /-- Values in order. -/
  | array (items : List Json)
  /-- Named values in order. -/
  | object (members : List (String × Json))

namespace Json

/-- The members of an object. -/
def members? : Json → Option (List (String × Json))
  | .object members => some members
  | _ => none

/-- The items of an array. -/
def items? : Json → Option (List Json)
  | .array items => some items
  | _ => none

/-- A text. -/
def string? : Json → Option String
  | .string s => some s
  | _ => none

/-- A number as a double. -/
def double? : Json → Option Double
  | .number n => some n.toDouble
  | _ => none

end Json

end FeatureQuery
