import FeatureQuery.Error
import FeatureQuery.Predicate.Like
import FeatureQuery.Query.Expr
import FeatureQuery.Record.Basic
import FeatureQuery.Text.Literal

/-!
# Predicates

A predicate is a query made ready for the records of a schema: its fields are known names, its
literals are unquoted and have their numeric reading, and its patterns are read.

A comparison takes the numeric readings of both sides where both have one, and their texts
otherwise. Null equals nothing and is not ordered. A number is not ordered against a literal that
has no numeric reading, and that is the only way in which evaluation fails, apart from a value that
is no number at all. The operands of `and` and `or` are evaluated from left to right until one
decides.
-/

namespace FeatureQuery

/-- The value that a field is compared with. -/
structure Literal where
  /-- The text, without quotes around it. -/
  text : String
  /-- The number that the text denotes. -/
  number : Option Double
  deriving DecidableEq

/-- The literal of an operand as it was written. -/
def Literal.ofOperand (raw : String) : Literal :=
  let text := String.ofList (Text.unquote raw.toList)
  { text, number := readNumber? text }

/-- A test on records. -/
inductive Predicate where
  /-- The field compared with the literal. -/
  | compare (field : String) (op : Comparison) (literal : Literal)
  /-- The field matched against the pattern. -/
  | like (field : String) (pattern : LikePattern)
  /-- The opposite of a test. -/
  | not (operand : Predicate)
  /-- Tests that are joined, in order. -/
  | join (connective : Connective) (operands : List Predicate)

namespace Predicate

/-! ### Equality -/

mutual

/-- Whether two predicates are the same tree. -/
def same : Predicate → Predicate → Bool
  | .compare field op literal, .compare field' op' literal' =>
    field = field' && op = op' && literal = literal'
  | .like field pattern, .like field' pattern' => field = field' && pattern = pattern'
  | .not operand, .not operand' => same operand operand'
  | .join connective operands, .join connective' operands' =>
    connective = connective' && sameAll operands operands'
  | _, _ => false

/-- Whether two lists hold the same trees. -/
def sameAll : List Predicate → List Predicate → Bool
  | [], [] => true
  | p :: ps, q :: qs => same p q && sameAll ps qs
  | _, _ => false

end

mutual

theorem same_iff : ∀ p q : Predicate, same p q = true ↔ p = q
  | .compare .., q => by cases q <;> simp [same, and_assoc]
  | .like .., q => by cases q <;> simp [same]
  | .not operand, q => by cases q <;> simp [same, same_iff operand]
  | .join _ operands, q => by cases q <;> simp [same, sameAll_iff operands]

theorem sameAll_iff : ∀ ps qs : List Predicate, sameAll ps qs = true ↔ ps = qs
  | [], qs => by cases qs <;> simp [sameAll]
  | p :: ps, qs => by cases qs <;> simp [sameAll, same_iff p, sameAll_iff ps]

end

instance : DecidableEq Predicate := fun p q => decidable_of_iff _ (same_iff p q)

end Predicate

/-! ### From queries to predicates -/

/-- The name of a field as it was written, if the schema has it. -/
def Schema.field (schema : Schema) (raw : String) : Except FilterError String :=
  let field := String.ofList (Text.unquote raw.toList)
  if schema.contains field then .ok field else .error (.unknownField field)

mutual

/-- The predicate of a query on records of the schema. The first field that the schema lacks is
reported. -/
def compile (schema : Schema) : Expr → Except FilterError Predicate
  | .compare op field value => do
    let field ← schema.field field
    .ok (.compare field op (Literal.ofOperand value))
  | .like field pattern => do
    let field ← schema.field field
    .ok (.like field (LikePattern.ofString (String.ofList (Text.unquote pattern.toList))))
  | .not operand => do
    let operand ← compile schema operand
    .ok (.not operand)
  | .join connective operands => do
    let operands ← compileAll schema operands
    .ok (.join connective operands)

/-- The predicates of several queries, in order. -/
def compileAll (schema : Schema) : List Expr → Except FilterError (List Predicate)
  | [] => .ok []
  | e :: es => do
    let p ← compile schema e
    let ps ← compileAll schema es
    .ok (p :: ps)

end

/-! ### Evaluation -/

namespace Value

/-- Whether a value equals a literal: as numbers if both have a numeric reading, and as texts
otherwise. -/
def equals (v : Value) (l : Literal) : Bool :=
  match v.number?, l.number with
  | some actual, some expected => actual.equals expected
  | _, _ => v.text? == some l.text

/-- How a value is ordered against a literal. Null is not ordered. -/
def order (v : Value) (l : Literal) : Except Mismatch (Option Ordering) :=
  match v, v.number?, l.number with
  | .null, _, _ => .ok none
  | _, some actual, some expected =>
    match actual.compare? expected with
    | some o => .ok (some o)
    | none => .error (.unordered actual expected)
  | .number actual, _, _ => .error (.numberAgainstText actual l.text)
  | .text s, _, _ => .ok (some (compare s l.text))

end Value

/-- Whether a comparison holds of two sides in the given order. -/
def Comparison.admits : Comparison → Ordering → Bool
  | .eq, o => o == .eq
  | .ne, o => o != .eq
  | .lt, o => o == .lt
  | .le, o => o != .gt
  | .gt, o => o == .gt
  | .ge, o => o != .lt

/-- The answer of a comparison on a value. -/
def Comparison.test (op : Comparison) (v : Value) (l : Literal) : Except Mismatch Bool :=
  match op with
  | .eq => .ok (v.equals l)
  | .ne => .ok (!v.equals l)
  | op =>
    match v.order l with
    | .ok (some o) => .ok (op.admits o)
    | .ok none => .ok false
    | .error mismatch => .error mismatch

/-- The answer of a connective when all operands have been passed over. -/
def Connective.neutral : Connective → Bool
  | .and => true
  | .or => false

namespace Predicate

mutual

/-- Whether a record passes the test. A field that the record lacks is null. -/
def evaluate (r : Record) : Predicate → Except FilterError Bool
  | .compare field op literal =>
    (op.test (r.value field) literal).mapError (.typeMismatch field)
  | .like field pattern => .ok ((r.value field).text?.any pattern.isMatch)
  | .not operand => (evaluate r operand).map (!·)
  | .join connective operands => evaluateAll r connective operands

/-- Evaluates operands from left to right, until one of them decides. -/
def evaluateAll (r : Record) (connective : Connective) : List Predicate → Except FilterError Bool
  | [] => .ok connective.neutral
  | p :: ps => do
    let b ← evaluate r p
    if b = connective.neutral then evaluateAll r connective ps else .ok b

end

/-! ### Combination -/

/-- The predicate that a fresh one makes together with the previous one. Every mode but `replace`
needs a previous one. -/
def combine (mode : Mode) (previous : Option Predicate) (fresh : Predicate) :
    Except FilterError Predicate :=
  match mode, previous with
  | .replace, _ => .ok fresh
  | _, none => .error (.noPreviousFilter mode)
  | .and, some previous => .ok (.join .and [previous, fresh])
  | .andNot, some previous => .ok (.join .and [previous, .not fresh])
  | .or, some previous => .ok (.join .or [previous, fresh])

end Predicate

end FeatureQuery
