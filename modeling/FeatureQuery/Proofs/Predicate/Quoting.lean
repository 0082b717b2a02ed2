import FeatureQuery.Predicate.Basic
import FeatureQuery.Proofs.Outcome
import FeatureQuery.Proofs.Number.Plain
import FeatureQuery.Proofs.Query.Quoting

/-!
# Conditions on quoted texts

A field name and a value are found again by the condition in which both are quoted, whatever
characters they hold (`quoted_condition`). A literal is compared as a number if its text is a
numeral, and so the condition on a number rests on the text of a double being read as that double.
-/

namespace FeatureQuery

namespace Double

/-- A number equals itself. -/
theorem equals_self {d : Double} (h : d ≠ .nan) : d.equals d = true := by
  cases d <;> simp_all [equals, compare?, place?]

end Double

/-- What is read from a text is a number. -/
theorem ne_nan_of_readNumber? {s : String} {d : Double} (h : readNumber? s = some d) :
    d ≠ .nan := by
  obtain ⟨n, _, rfl⟩ := Option.map_eq_some_iff.mp h
  exact Double.ofRatio_ne_nan _ _ _

/-- **A value equals its own text**, taken as a literal: as a number if the text is a numeral. -/
theorem Value.equals_own_text {v : Value} {t : String} (ht : v.text? = some t) :
    v.equals ⟨t, readNumber? t⟩ = true := by
  cases v with
  | null => simp [Value.text?] at ht
  | text s =>
    obtain rfl : s = t := by simpa [Value.text?] using ht
    cases hs : readNumber? s with
    | none => simp [Value.equals, Value.number?, Value.text?, hs]
    | some d =>
      simp [Value.equals, Value.number?, hs, Double.equals_self (ne_nan_of_readNumber? hs)]
  | number d =>
    obtain rfl : d.plainText = t := by simpa [Value.text?] using ht
    cases d with
    | finite negative m =>
      simp [Value.equals, Value.number?, readNumber?_plainText_finite, Double.equals_self]
    | infinite negative =>
      simp [Value.equals, Value.number?, Value.text?, readNumber?_plainText_infinite]
    | nan => simp [Value.equals, Value.number?, Value.text?, readNumber?_plainText_nan]

/-- The quoted name of a field of the schema is the name. -/
theorem Schema.field_quoted {schema : Schema} {f : String} (h : schema.contains f = true) :
    schema.field (quoted f) = .ok f := by
  simp [Schema.field, Text.unquote_quote, h]

/-- **Quoting protects any text.** -/
theorem quoted_condition (f : String) {v : Value} {t : String} (ht : v.text? = some t) :
    (∀ op : Comparison,
      let query := quoted f ++ " " ++ op.text ++ " " ++ quoted t
      let e := Expr.compare op (quoted f) (quoted t)
      Wildcards.toPattern query = query ∧ parse query = .ok e ∧
        ∀ schema : Schema, schema.contains f = true →
          ∃ literal : Literal, literal.text = t ∧
            compile schema e = .ok (.compare f op literal) ∧
            ∀ r : Record, r.value f = v →
              (op = .eq → Predicate.evaluate r (.compare f op literal) = .ok true) ∧
              (op = .ne → Predicate.evaluate r (.compare f op literal) = .ok false)) ∧
    (let e := Expr.like (quoted f) (quoted t)
     parse (quoted f ++ " like " ++ quoted t) = .ok e ∧
      ∀ schema : Schema, schema.contains f = true →
        compile schema e = .ok (.like f (LikePattern.ofString t))) := by
  refine ⟨fun op => ⟨Wildcards.toPattern_compare_quoted op f t, parse_compare_quoted op f t,
    fun schema hf => ⟨⟨t, readNumber? t⟩, rfl, ?_, fun r hr => ?_⟩⟩,
    parse_like_quoted f t, fun schema hf => ?_⟩
  · simp [compile, Schema.field_quoted hf, Literal.ofOperand, Text.unquote_quote]
  · have hequals := Value.equals_own_text ht
    constructor <;> rintro rfl <;> rw [Predicate.evaluate, hr, mapError_eq_ok_iff] <;>
      simp [Comparison.test, hequals]
  · simp [compile, Schema.field_quoted hf, Text.unquote_quote]

/-- A text with quotes, brackets and operators in it, and a number. -/
theorem quoted_condition_operators_number :
    let schema : Schema := ⟨["it's (a) 'like'"]⟩
    let number : Value := .number (Double.ofRatio true 5 2)
    number.text? = some "-2.5" ∧
    Wildcards.toPattern "'it''s (a) ''like''' = ''''' or (x <> ''y'') like '''" =
      "'it''s (a) ''like''' = ''''' or (x <> ''y'') like '''" ∧
    ∃ literal : Literal, literal.text = "-2.5" ∧
      compile schema (.compare .eq "'it''s (a) ''like'''" "'-2.5'") =
        .ok (.compare "it's (a) 'like'" .eq literal) := by
  have hnumber : (Value.number (Double.ofRatio true 5 2)).text? = some "-2.5" := by
    decide +kernel
  have htext := quoted_condition "it's (a) 'like'" (v := .text "'' or (x <> 'y') like '") rfl
  have hcondition := quoted_condition "it's (a) 'like'" hnumber
  obtain ⟨literal, hliteral, hcompile, -⟩ := (hcondition.1 .eq).2.2 ⟨["it's (a) 'like'"]⟩ rfl
  exact ⟨hnumber, (htext.1 .eq).1, literal, hliteral, hcompile⟩

end FeatureQuery
