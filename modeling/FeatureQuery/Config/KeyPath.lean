import FeatureQuery.Json.Basic

/-!
# Key paths

A key of the settings may be a path to a place inside them: names with points between them, and
numbers in brackets for the items of a list. A key that is no such path, such as one with a blank
outside brackets, names itself. `Json.putAt` puts a value at a key's place; what lies on the way and
is neither a mapping nor a list becomes one, and mappings are merged.
-/

namespace FeatureQuery

/-- A step of a key path. -/
inductive KeyStep where
  /-- To the member of a name. -/
  | name (key : String)
  /-- To the item at an index; from the end, if the index is negative. -/
  | index (i : Int)
  deriving DecidableEq

/-- A place in the settings. -/
abbrev KeyPath := List KeyStep

namespace KeyPath

/-! ### Reading -/

/-- A character of a name in a path: an ASCII letter or digit, an underscore, or a hyphen. -/
def isNameChar (c : Char) : Bool := c.isAlphanum || c == '_' || c == '-'

/-- An index between brackets, with blanks around it. It has 64 bits with its sign. -/
def readIndex? (cs : List Char) : Option Int := do
  let isBlank := fun c => c == ' ' || c == '\t'
  let number := ((cs.dropWhile isBlank).reverse.dropWhile isBlank).reverse
  let digits := match number with
    | '-' :: digits => digits
    | digits => digits
  let n := Nat.ofDigitChars 10 digits 0
  if digits = [] ∨ !digits.all Char.isDigit then none
  else if number.head? = some '-' then if n ≤ UInt64.size / 2 then some (-(n : Int)) else none
  else if n < UInt64.size / 2 then some (n : Int) else none

/-- The steps that follow the first name. -/
def readSteps? (cs : List Char) : Option KeyPath :=
  match cs with
  | [] => some []
  | '.' :: cs => do
    let name := cs.takeWhile isNameChar
    if name = [] then none
    else
      let steps ← readSteps? (cs.dropWhile isNameChar)
      some (.name (String.ofList name) :: steps)
  | '[' :: cs => do
    let i ← readIndex? (cs.takeWhile (· ≠ ']'))
    if cs.contains ']' then
      let steps ← readSteps? ((cs.dropWhile (· ≠ ']')).drop 1)
      some (.index i :: steps)
    else none
  | _ => none
termination_by cs.length
decreasing_by
  · exact Nat.lt_succ_of_le (List.dropWhile_sublist _).length_le
  · exact Nat.lt_succ_of_le <|
      Nat.le_trans (List.drop_sublist _ _).length_le (List.dropWhile_sublist _).length_le

/-- The place that a key names. -/
def ofKey (key : String) : KeyPath := (readSteps? ('.' :: key.toList)).getD [.name key]

end KeyPath

/-! ### Putting values -/

namespace Json

mutual

/-- A value over what stood in its place: a mapping is merged into it, and any other value takes its
place. -/
def mergedOver : Json → (old : Json) → Json
  | .object members, old => .object (mergedMembers members (old.members?.getD []))
  | v, _ => v

/-- The members of a mapping after others were merged into it. -/
def mergedMembers : List (String × Json) → (old : List (String × Json)) → List (String × Json)
  | [], old => old
  | (key, v) :: rest, old =>
    mergedMembers rest (Entries.put key (v.mergedOver ((Entries.get? key old).getD .null)) old)

end

/-- The items of a list, with nulls added until there is one at an index, and where it stands. A
list that an index from the end does not reach grows in front. -/
def reach (items : List Json) (i : Int) : List Json × Nat :=
  if 0 ≤ i then (items ++ List.replicate (i.toNat + 1 - items.length) .null, i.toNat)
  else if 0 ≤ items.length + i then (items, (items.length + i).toNat)
  else (List.replicate (-(items.length + i)).toNat .null ++ items, 0)

/-- A value with another one put at a place inside it. -/
def putAt (v : Json) : KeyPath → Json → Json
  | [], old => v.mergedOver old
  | .name key :: path, old =>
    let members := old.members?.getD []
    .object (Entries.put key (v.putAt path ((Entries.get? key members).getD .null)) members)
  | .index i :: path, old =>
    let (items, place) := reach (old.items?.getD []) i
    .array (items.modify place (v.putAt path))

/-- The settings that a mapping holds, its keys taken for paths. -/
def expandKeys (members : List (String × Json)) : List (String × Json) :=
  let tree := members.foldl
    (fun (tree : Json) (key, v) => v.putAt (KeyPath.ofKey key) tree) (.object [])
  tree.members?.getD []

end Json

end FeatureQuery
