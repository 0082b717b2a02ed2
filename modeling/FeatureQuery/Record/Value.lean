import FeatureQuery.Json.Printer
import FeatureQuery.Number.Numeral

/-!
# Attribute values

An attribute is null, a number or a text. A value has a numeric reading when it is a number or a
text that is a decimal numeral, and a text reading unless it is null.
-/

namespace FeatureQuery

/-- The value of an attribute. -/
inductive Value where
  /-- No value. -/
  | null
  /-- A number. -/
  | number (d : Double)
  /-- A text. -/
  | text (s : String)
  deriving DecidableEq

namespace Value

instance : Inhabited Value := ⟨.null⟩

/-- The numeric reading of a value. -/
def number? : Value → Option Double
  | .null => none
  | .number d => some d
  | .text s => readNumber? s

/-- The text reading of a value. -/
def text? : Value → Option String
  | .null => none
  | .number d => some d.plainText
  | .text s => some s

/-- The value as it is shown: null is shown as nothing. -/
def shown (v : Value) : String := v.text?.getD ""

/-- The value of a property. Truth values and nested values are kept as their JSON text. -/
def ofJson : Json → Value
  | .null => .null
  | .number n => .number n.toDouble
  | .string s => .text s
  | v => .text v.text

/-- The property that holds a value. A number that JSON cannot write becomes null. -/
def toJson : Value → Json
  | .null => .null
  | .number (.finite negative m) => .number (.double (.finite negative m))
  | .number _ => .null
  | .text s => .string s

end Value

end FeatureQuery
