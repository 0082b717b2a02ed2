import FeatureQuery.Json.Basic
import FeatureQuery.Json.Escape
import FeatureQuery.Number.Scientific
import FeatureQuery.Text.Digits

/-!
# Scalars in YAML

A plain scalar stands for null, a truth value, a whole number, another number or a text, by what it
looks like; a quoted scalar is always a text. Whole numbers may be decimal, hexadecimal or octal,
and have 64 bits with their sign. Other numbers keep their spelling: as a key they are spelled text,
and as a value they are read only then (`Scalar.value?`). The words for an infinite number and for
no number are keys, but no values.
-/

namespace FeatureQuery.Yaml

/-- What a scalar stands for. -/
inductive Scalar where
  /-- No value. -/
  | null
  /-- A truth value. -/
  | bool (b : Bool)
  /-- A whole number. -/
  | whole (n : Int)
  /-- A number that is not whole, as it is spelled. -/
  | real (spelled : String)
  /-- A text. -/
  | text (s : String)
  deriving DecidableEq

/-! ### Whole numbers -/

/-- A whole number within 64 bits with a sign, from digits in a base. -/
def digitsIn? (base : Nat) (negative : Bool) (digits : List Char) : Option Int := do
  let n ← digits.foldlM (fun (n : Nat) c => do
    let d ← Json.hexValue? c
    if d < base then some (n * base + d) else none) 0
  if digits = [] then none
  else if negative then if n ≤ UInt64.size / 2 then some (-(n : Int)) else none
  else if n < UInt64.size / 2 then some (n : Int) else none

/-- A whole number in a base, after a sign if there is one. -/
def wholeIn? (base : Nat) : List Char → Option Int
  | '-' :: digits => digitsIn? base true digits
  | '+' :: digits => digitsIn? base false digits
  | digits => digitsIn? base false digits

/-- A whole number as a plain scalar spells it. A plus sign may stand before a number that has a
sign of its own, and so may the mark of a base. -/
def whole? : List Char → Option Int
  | '0' :: 'x' :: cs => wholeIn? 16 cs
  | '0' :: 'o' :: cs => wholeIn? 8 cs
  | '+' :: cs => wholeIn? 10 cs
  | cs => wholeIn? 10 cs

/-! ### Plain scalars -/

/-- The words for an infinite number and for no number. -/
def nonFinite : List String :=
  [".inf", ".Inf", ".INF", "+.inf", "+.Inf", "+.INF", "-.inf", "-.Inf", "-.INF",
    ".nan", ".NaN", ".NAN"]

/-- What a plain scalar stands for. -/
def Scalar.ofPlain (cs : List Char) : Scalar :=
  let spelled := String.ofList cs
  if ["", "~", "null"].contains spelled then .null
  else if ["true", "True", "TRUE"].contains spelled then .bool true
  else if ["false", "False", "FALSE"].contains spelled then .bool false
  else
    match whole? cs with
    | some n => .whole n
    | none =>
      if nonFinite.contains spelled || (Scientific.read? cs).isSome then .real spelled
      else .text spelled

/-! ### Keys and values -/

/-- The name that a scalar is as a key. There is none for null. -/
def Scalar.key? : Scalar → Option String
  | .null => none
  | .bool b => some (if b then "true" else "false")
  | .whole n => some (Text.ofInt n)
  | .real spelled => some spelled
  | .text s => some s

/-- The value that a scalar is. A number must be spelled with digits. -/
def Scalar.value? : Scalar → Option Json
  | .null => some .null
  | .bool b => some (.bool b)
  | .whole n => some (.number (.whole n))
  | .real spelled =>
    (Scientific.read? spelled.toList).map fun s => .number (.double s.toDouble)
  | .text s => some (.string s)

end FeatureQuery.Yaml
