/-!
# Queries as trees

A query compares fields with values and matches fields against patterns, and joins such conditions
by `and`, `or` and `not`. The operands of a condition are kept as they were written, with their
quotes. `Expr.text` writes a tree with every operand of `and`, `or` and `not` in parentheses.
-/

namespace FeatureQuery

/-- How a field is compared with a value. -/
inductive Comparison where
  /-- Equal: `=`. -/
  | eq
  /-- Different: `<>`. -/
  | ne
  /-- Below: `<`. -/
  | lt
  /-- Below or equal: `<=`. -/
  | le
  /-- Above: `>`. -/
  | gt
  /-- Above or equal: `>=`. -/
  | ge
  deriving DecidableEq

/-- The sign of a comparison. -/
def Comparison.text : Comparison → String
  | .eq => "="
  | .ne => "<>"
  | .lt => "<"
  | .le => "<="
  | .gt => ">"
  | .ge => ">="

/-- How several conditions are joined. -/
inductive Connective where
  /-- All must hold. -/
  | and
  /-- One must hold. -/
  | or
  deriving DecidableEq

/-- The word for a connective. -/
def Connective.text : Connective → String
  | .and => "and"
  | .or => "or"

/-- A query. -/
inductive Expr where
  /-- The field compared with the value. -/
  | compare (op : Comparison) (field value : String)
  /-- The field matched against the pattern. -/
  | like (field pattern : String)
  /-- The opposite of a condition. -/
  | not (operand : Expr)
  /-- Conditions that are joined, in order. -/
  | join (connective : Connective) (operands : List Expr)

namespace Expr

/-! ### Equality -/

mutual

/-- Whether two queries are the same tree. -/
def same : Expr → Expr → Bool
  | .compare op field value, .compare op' field' value' =>
    op = op' && field = field' && value = value'
  | .like field pattern, .like field' pattern' => field = field' && pattern = pattern'
  | .not operand, .not operand' => same operand operand'
  | .join connective operands, .join connective' operands' =>
    connective = connective' && sameAll operands operands'
  | _, _ => false

/-- Whether two lists hold the same trees. -/
def sameAll : List Expr → List Expr → Bool
  | [], [] => true
  | e :: es, f :: fs => same e f && sameAll es fs
  | _, _ => false

end

mutual

theorem same_iff : ∀ a b : Expr, same a b = true ↔ a = b
  | .compare .., b => by cases b <;> simp [same, and_assoc]
  | .like .., b => by cases b <;> simp [same]
  | .not operand, b => by cases b <;> simp [same, same_iff operand]
  | .join _ operands, b => by cases b <;> simp [same, sameAll_iff operands]

theorem sameAll_iff : ∀ as bs : List Expr, sameAll as bs = true ↔ as = bs
  | [], bs => by cases bs <;> simp [sameAll]
  | e :: es, bs => by cases bs <;> simp [sameAll, same_iff e, sameAll_iff es]

end

instance : DecidableEq Expr := fun a b => decidable_of_iff _ (same_iff a b)

/-! ### Text and depth -/

mutual

/-- The query as text, with every operand of `and`, `or` and `not` in parentheses. -/
def text : Expr → String
  | .compare op field value => field ++ " " ++ op.text ++ " " ++ value
  | .like field pattern => field ++ " like " ++ pattern
  | .not operand => "not (" ++ text operand ++ ")"
  | .join connective operands => joined connective operands

/-- The operands in parentheses, with the connective between them. -/
def joined (connective : Connective) : List Expr → String
  | [] => ""
  | [e] => "(" ++ text e ++ ")"
  | e :: f :: rest =>
    "(" ++ text e ++ ") " ++ connective.text ++ " " ++ joined connective (f :: rest)

end

mutual

/-- How many levels of `and`, `or` and `not` stand above the deepest condition. -/
def depth : Expr → Nat
  | .compare .. => 0
  | .like .. => 0
  | .not operand => depth operand + 1
  | .join _ operands => depthOfAll operands + 1

/-- The greatest depth in a list. -/
def depthOfAll : List Expr → Nat
  | [] => 0
  | e :: rest => max (depth e) (depthOfAll rest)

end

end Expr

end FeatureQuery
