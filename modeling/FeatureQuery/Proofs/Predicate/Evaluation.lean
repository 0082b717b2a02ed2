import FeatureQuery.Predicate.Basic
import FeatureQuery.Proofs.Outcome

/-!
# Evaluating predicates

Whatever a predicate fails with is a type mismatch (`exists_typeMismatch_of_evaluate`).

A predicate that was combined with a previous one asks the fresh one only about the records that the
previous one leaves open: `Mode.asks` says which these are, and `Mode.answer` what comes of the two
answers (`evaluate_combine`).
-/

namespace FeatureQuery

namespace Mode

/-- Whether the fresh predicate is asked, given the answer of the previous one. -/
def asks : Mode → Bool → Bool
  | .replace, _ => true
  | .and, previous => previous
  | .andNot, previous => previous
  | .or, previous => !previous

/-- The answer that comes of the answers of the previous predicate and the fresh one. -/
def answer : Mode → Bool → Bool → Bool
  | .replace, _, fresh => fresh
  | .and, previous, fresh => previous && fresh
  | .andNot, previous, fresh => previous && !fresh
  | .or, previous, fresh => previous || fresh

end Mode

namespace Predicate

/-! ### Failures -/

mutual

/-- **A predicate fails only with a type mismatch.** -/
theorem exists_typeMismatch_of_evaluate {r : Record} {e : FilterError} : ∀ {p : Predicate},
    evaluate r p = .error e → ∃ field detail, e = .typeMismatch field detail
  | .compare field op literal, h => by
    rw [evaluate] at h
    obtain ⟨detail, -, rfl⟩ := mapError_eq_error_iff.mp h
    exact ⟨field, detail, rfl⟩
  | .like .., h => by simp [evaluate] at h
  | .not operand, h => by
    rw [evaluate] at h
    exact exists_typeMismatch_of_evaluate (map_eq_error_iff.mp h)
  | .join connective operands, h => exists_typeMismatch_of_evaluateAll h

theorem exists_typeMismatch_of_evaluateAll {r : Record} {connective : Connective}
    {e : FilterError} : ∀ {ps : List Predicate}, evaluateAll r connective ps = .error e →
      ∃ field detail, e = .typeMismatch field detail
  | [], h => by simp [evaluateAll] at h
  | p :: ps, h => by
    rw [evaluateAll] at h
    cases hp : evaluate r p with
    | error e' =>
      rw [hp] at h
      cases h
      exact exists_typeMismatch_of_evaluate hp
    | ok b =>
      rw [hp, ok_bind] at h
      split at h
      · exact exists_typeMismatch_of_evaluateAll h
      · simp at h

end

/-! ### Combination -/

/-- The last operand of a connective decides if no other one has. -/
theorem evaluateAll_singleton (r : Record) (connective : Connective) (p : Predicate) :
    evaluateAll r connective [p] = evaluate r p := by
  rw [evaluateAll]
  cases evaluate r p with
  | error e => rfl
  | ok b => by_cases hb : b = connective.neutral <;> simp [hb, evaluateAll]

/-- A pair of operands: the second one is evaluated where the first has not decided. -/
theorem evaluate_join_pair {r : Record} {p : Predicate} {b : Bool} (hp : evaluate r p = .ok b)
    (connective : Connective) (q : Predicate) :
    evaluate r (.join connective [p, q]) =
      if b = connective.neutral then evaluate r q else .ok b := by
  rw [evaluate, evaluateAll, hp, ok_bind, evaluateAll_singleton]

/-- Without a previous predicate only `replace` combines. -/
theorem eq_of_combine_none {mode : Mode} {fresh combined : Predicate}
    (h : combine mode none fresh = .ok combined) : combined = fresh := by
  cases mode <;> cases h
  rfl

/-- **Evaluating a combined predicate**, where the previous one has an answer: the fresh one is
asked if that answer leaves the record open. -/
theorem evaluate_combine {mode : Mode} {previous : Option Predicate} {fresh combined : Predicate}
    (h : combine mode previous fresh = .ok combined) {r : Record} {b : Bool}
    (hprevious : ∀ p ∈ previous, evaluate r p = .ok b) :
    evaluate r combined =
      if mode.asks b then (evaluate r fresh).map (mode.answer b) else .ok b := by
  cases mode with
  | replace =>
    cases h
    cases evaluate r fresh <;> rfl
  | and =>
    cases previous with
    | none => simp [combine] at h
    | some p =>
      cases h
      rw [evaluate_join_pair (hprevious p rfl)]
      cases b <;> cases evaluate r fresh <;> rfl
  | andNot =>
    cases previous with
    | none => simp [combine] at h
    | some p =>
      cases h
      rw [evaluate_join_pair (hprevious p rfl), evaluate]
      cases b <;> cases evaluate r fresh <;> rfl
  | or =>
    cases previous with
    | none => simp [combine] at h
    | some p =>
      cases h
      rw [evaluate_join_pair (hprevious p rfl)]
      cases b <;> cases evaluate r fresh <;> rfl

end Predicate

end FeatureQuery
