import FeatureQuery.Json.Basic
import FeatureQuery.Json.Escape
import FeatureQuery.Number.Format
import FeatureQuery.Text.Digits

/-!
# Writing a JSON value

A value is written without blanks, the members of an object in their order. A double that is not a
finite number is written as `null`.
-/

namespace FeatureQuery

/-- A number as JSON text. -/
def JsonNumber.text : JsonNumber → String
  | .whole n => Text.ofInt n
  | .double (.finite negative m) => NumberFormat.json.text (.finite negative m)
  | .double _ => "null"

namespace Json

mutual

/-- The characters of a value's text. -/
def chars : Json → List Char
  | .null => ['n', 'u', 'l', 'l']
  | .bool true => ['t', 'r', 'u', 'e']
  | .bool false => ['f', 'a', 'l', 's', 'e']
  | .number n => n.text.toList
  | .string s => escape s.toList
  | .array items => '[' :: (itemChars items ++ [']'])
  | .object members => '\x7b' :: (memberChars members ++ ['\x7d'])

/-- The items of an array, with commas between them. -/
def itemChars : List Json → List Char
  | [] => []
  | [v] => chars v
  | v :: w :: rest => chars v ++ ',' :: itemChars (w :: rest)

/-- The members of an object, with commas between them. -/
def memberChars : List (String × Json) → List Char
  | [] => []
  | [(name, v)] => escape name.toList ++ ':' :: chars v
  | (name, v) :: m :: rest =>
    escape name.toList ++ ':' :: (chars v ++ ',' :: memberChars (m :: rest))

end

/-- The text of a value. -/
def text (v : Json) : String := String.ofList v.chars

end Json

end FeatureQuery
