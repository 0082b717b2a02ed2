import FeatureQuery.Query.Expr
import FeatureQuery.Text.After

/-!
# Operators

The operators of the query language fall into three tiers that bind ever more strongly: `and` and
`or`, then `not` and `like`, then the comparisons. An operator that is a word stands on its own: no
letter of the ASCII alphabet may touch it. Of two comparisons that begin alike the longer is read.
-/

namespace FeatureQuery

/-- An operator of the query language. -/
inductive Operator where
  /-- Joins two conditions. -/
  | join (connective : Connective)
  /-- Turns a condition into its opposite. -/
  | not
  /-- Matches a field against a pattern. -/
  | like
  /-- Compares a field with a value. -/
  | compare (op : Comparison)
  deriving DecidableEq

/-- The operators that bind equally strongly. -/
inductive Tier where
  /-- The operators `and` and `or`. -/
  | logical
  /-- The operators `not` and `like`. -/
  | unaryText
  /-- The comparisons. -/
  | comparison
  deriving DecidableEq

namespace Operator

/-- The operator as it is written. -/
def text : Operator → String
  | .join connective => connective.text
  | .not => "not"
  | .like => "like"
  | .compare op => op.text

/-- Whether the operator is a word. -/
def isWord : Operator → Bool
  | .compare _ => false
  | _ => true

/-- Whether a word touches a letter on either side. -/
def touchesLetter (previous next : Option Char) : Bool :=
  previous.any Char.isAlpha || next.any Char.isAlpha

/-- The operator at the start of a text, and what follows it. -/
def strip? (op : Operator) (cs : List Char) : Option (List Char) := Text.after? op.text.toList cs

end Operator

namespace Tier

/-- All tiers, the weakest first. -/
def all : List Tier := [.logical, .unaryText, .comparison]

/-- The operators of a tier, each before those that it begins with. -/
def operators : Tier → List Operator
  | .logical => [.join .and, .join .or]
  | .unaryText => [.not, .like]
  | .comparison =>
    [.compare .le, .compare .ge, .compare .ne, .compare .eq, .compare .lt, .compare .gt]

/-- The operator of the tier that a text begins with, and what follows. The character before the
text decides, with the one after the operator, whether a word stands on its own. -/
def read? (tier : Tier) (previous : Option Char) (cs : List Char) :
    Option (Operator × List Char) := do
  let (op, rest) ← tier.operators.findSome? fun op => (op.strip? cs).map fun rest => (op, rest)
  if op.isWord && Operator.touchesLetter previous rest.head? then none else some (op, rest)

end Tier

theorem Operator.eq_append_of_strip? {op : Operator} {cs rest : List Char}
    (h : op.strip? cs = some rest) : cs = op.text.toList ++ rest :=
  Text.after?_eq_some_iff.1 h

theorem Tier.eq_append_of_read? {tier : Tier} {previous : Option Char} {cs rest : List Char}
    {op : Operator} (h : tier.read? previous cs = some (op, rest)) :
    cs = op.text.toList ++ rest := by
  simp only [Tier.read?, Option.bind_eq_bind, Option.bind_eq_some_iff] at h
  obtain ⟨⟨op', rest'⟩, hfind, h⟩ := h
  obtain ⟨candidate, _, hstrip⟩ := List.exists_of_findSome?_eq_some hfind
  obtain ⟨r, hr, heq⟩ := Option.map_eq_some_iff.1 hstrip
  simp only [Prod.mk.injEq] at heq
  obtain ⟨rfl, rfl⟩ := heq
  simp only at h
  split at h
  · simp at h
  · simp only [Option.some.injEq, Prod.mk.injEq] at h
    obtain ⟨rfl, rfl⟩ := h
    exact Operator.eq_append_of_strip? hr

end FeatureQuery
