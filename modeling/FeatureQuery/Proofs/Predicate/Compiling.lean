import FeatureQuery.Predicate.Basic
import FeatureQuery.Proofs.Outcome

/-!
# What compiling keeps

A predicate has the shape of its query. It is as deep (`depth_of_compile`), and it mentions only
fields that the schema has (`contains_of_compile`).
-/

namespace FeatureQuery

namespace Predicate

mutual

/-- How many levels of `and`, `or` and `not` stand above the deepest test. -/
def depth : Predicate → Nat
  | .compare .. => 0
  | .like .. => 0
  | .not operand => depth operand + 1
  | .join _ operands => depthOfAll operands + 1

/-- The greatest depth in a list. -/
def depthOfAll : List Predicate → Nat
  | [] => 0
  | p :: rest => max (depth p) (depthOfAll rest)

end

mutual

/-- The fields that a predicate mentions, in order. -/
def fields : Predicate → List String
  | .compare field _ _ => [field]
  | .like field _ => [field]
  | .not operand => fields operand
  | .join _ operands => fieldsOfAll operands

/-- The fields that the predicates of a list mention, in order. -/
def fieldsOfAll : List Predicate → List String
  | [] => []
  | p :: rest => fields p ++ fieldsOfAll rest

end

end Predicate

/-- A field that the schema gives is one of its own. -/
theorem Schema.contains_of_field {schema : Schema} {raw field : String}
    (h : schema.field raw = .ok field) : schema.contains field := by
  rw [Schema.field] at h
  split at h
  · cases h
    assumption
  · simp at h

mutual

/-- **A predicate is as deep as its query.** -/
theorem depth_of_compile {schema : Schema} : ∀ {e : Expr} {p : Predicate},
    compile schema e = .ok p → p.depth = e.depth
  | .compare .., _, h => by
    obtain ⟨field, -, h⟩ := bind_eq_ok_iff.mp h
    cases h
    rfl
  | .like .., _, h => by
    obtain ⟨field, -, h⟩ := bind_eq_ok_iff.mp h
    cases h
    rfl
  | .not operand, _, h => by
    obtain ⟨q, hq, h⟩ := bind_eq_ok_iff.mp h
    cases h
    rw [Predicate.depth, Expr.depth, depth_of_compile hq]
  | .join connective operands, _, h => by
    obtain ⟨qs, hqs, h⟩ := bind_eq_ok_iff.mp h
    cases h
    rw [Predicate.depth, Expr.depth, depthOfAll_of_compileAll hqs]

theorem depthOfAll_of_compileAll {schema : Schema} : ∀ {es : List Expr} {ps : List Predicate},
    compileAll schema es = .ok ps → Predicate.depthOfAll ps = Expr.depthOfAll es
  | [], _, h => by
    cases h
    rfl
  | e :: es, _, h => by
    obtain ⟨p, hp, h⟩ := bind_eq_ok_iff.mp h
    obtain ⟨ps, hps, h⟩ := bind_eq_ok_iff.mp h
    cases h
    rw [Predicate.depthOfAll, Expr.depthOfAll, depth_of_compile hp, depthOfAll_of_compileAll hps]

end

mutual

/-- **A predicate mentions only fields of the schema.** -/
theorem contains_of_compile {schema : Schema} : ∀ {e : Expr} {p : Predicate},
    compile schema e = .ok p → ∀ field ∈ p.fields, schema.contains field
  | .compare .., _, h => by
    obtain ⟨field, hf, h⟩ := bind_eq_ok_iff.mp h
    cases h
    simpa [Predicate.fields] using Schema.contains_of_field hf
  | .like .., _, h => by
    obtain ⟨field, hf, h⟩ := bind_eq_ok_iff.mp h
    cases h
    simpa [Predicate.fields] using Schema.contains_of_field hf
  | .not operand, _, h => by
    obtain ⟨q, hq, h⟩ := bind_eq_ok_iff.mp h
    cases h
    rw [Predicate.fields]
    exact contains_of_compile hq
  | .join connective operands, _, h => by
    obtain ⟨qs, hqs, h⟩ := bind_eq_ok_iff.mp h
    cases h
    rw [Predicate.fields]
    exact contains_of_compileAll hqs

theorem contains_of_compileAll {schema : Schema} : ∀ {es : List Expr} {ps : List Predicate},
    compileAll schema es = .ok ps → ∀ field ∈ Predicate.fieldsOfAll ps, schema.contains field
  | [], _, h, field, hf => by
    cases h
    simp [Predicate.fieldsOfAll] at hf
  | e :: es, _, h, field, hf => by
    obtain ⟨p, hp, h⟩ := bind_eq_ok_iff.mp h
    obtain ⟨ps, hps, h⟩ := bind_eq_ok_iff.mp h
    cases h
    rcases List.mem_append.mp hf with hf | hf
    · exact contains_of_compile hp field hf
    · exact contains_of_compileAll hps field hf

end

end FeatureQuery
