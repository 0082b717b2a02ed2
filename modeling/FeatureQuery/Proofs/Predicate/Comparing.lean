import FeatureQuery.Proofs.Predicate.Quoting

/-!
# The comparisons of one value

Equality and order are found in two ways, and each way chooses by itself whether the two sides are
compared as numbers or as texts. Both make the same choice: a value that is ordered against a
literal equals the literal if and only if it stands neither before nor after it
(`Value.equals_of_order`). So the answers of all six comparisons follow from one order
(`Comparison.test_of_order`). Null has no order, and a value **clashes** with a literal if the order
fails (`Value.order_eq_error_iff`).

Main statement: the six comparisons of a value with a literal fit together, and they fail only for a
number against a text and for what is no number (`evaluate_comparisons`).
-/

namespace FeatureQuery

namespace Double

/-- Only what is no number cannot be compared with a number. -/
theorem compare?_eq_none_iff {a b : Double} : a.compare? b = none ↔ a = .nan ∨ b = .nan := by
  cases a <;> cases b <;> simp [compare?, place?]

end Double

/-- Whether a comparison asks for the order of its two sides. -/
def Comparison.isOrdering : Comparison → Bool
  | .eq => false
  | .ne => false
  | _ => true

namespace Value

/-- The value cannot be ordered against the literal, and why. -/
inductive Clashes (v : Value) (l : Literal) : Mismatch → Prop where
  /-- A number against a text that is no numeral. -/
  | numberAgainstText {d : Double} (value : v = .number d) (literal : l.number = none) :
      Clashes v l (.numberAgainstText d l.text)
  /-- Two numeric readings, of which one is no number. -/
  | unordered {a b : Double} (value : v.number? = some a) (literal : l.number = some b)
      (nan : a = .nan ∨ b = .nan) : Clashes v l (.unordered a b)

variable {v : Value} {l : Literal}

/-! ### The order of a value -/

/-- Numeric readings are ordered as numbers. -/
theorem order_of_numbers {a b : Double} (ha : v.number? = some a) (hb : l.number = some b) :
    v.order l = match a.compare? b with
      | some o => .ok (some o)
      | none => .error (.unordered a b) := by
  cases v with
  | null => simp [number?] at ha
  | number d => cases hc : a.compare? b <;> simp [order, ha, hb, hc]
  | text s => cases hc : a.compare? b <;> simp [order, ha, hb, hc]

/-- A number is not ordered against a text. -/
theorem order_number_of_none {d : Double} (h : l.number = none) :
    (Value.number d).order l = .error (.numberAgainstText d l.text) := by
  simp [order, h]

/-- Two texts are ordered as texts unless both are numerals. -/
theorem order_text {s : String} (h : readNumber? s = none ∨ l.number = none) :
    (Value.text s).order l = .ok (some (compare s l.text)) := by
  rcases h with hs | hl
  · simp [order, number?, hs]
  · simp [order, hl]

/-- The sides of a comparison: null, two numeric readings, a number and a text, or two texts. -/
theorem sides (v : Value) (l : Literal) :
    v = .null ∨ (∃ a b, v.number? = some a ∧ l.number = some b) ∨
      (∃ d, v = .number d ∧ l.number = none) ∨
      ∃ s, v = .text s ∧ (readNumber? s = none ∨ l.number = none) := by
  cases v with
  | null => exact .inl rfl
  | number d =>
    cases hl : l.number with
    | none => exact .inr (.inr (.inl ⟨d, rfl, rfl⟩))
    | some b => exact .inr (.inl ⟨d, b, rfl, rfl⟩)
  | text s =>
    cases hs : readNumber? s with
    | none => exact .inr (.inr (.inr ⟨s, rfl, .inl hs⟩))
    | some a =>
      cases hl : l.number with
      | none => exact .inr (.inr (.inr ⟨s, rfl, .inr rfl⟩))
      | some b => exact .inr (.inl ⟨a, b, hs, rfl⟩)

/-- **The order fails** just when the value clashes with the literal. -/
theorem order_eq_error_iff {m : Mismatch} : v.order l = .error m ↔ v.Clashes l m := by
  constructor
  · intro h
    obtain rfl | ⟨a, b, ha, hb⟩ | ⟨d, rfl, hl⟩ | ⟨s, rfl, htext⟩ := sides v l
    · simp [order] at h
    · rw [order_of_numbers ha hb] at h
      cases hc : a.compare? b with
      | none =>
        rw [hc] at h
        cases h
        exact .unordered ha hb (Double.compare?_eq_none_iff.mp hc)
      | some o => simp [hc] at h
    · rw [order_number_of_none hl] at h
      cases h
      exact .numberAgainstText rfl hl
    · simp [order_text htext] at h
  · rintro (⟨rfl, hl⟩ | ⟨ha, hb, hnan⟩)
    · exact order_number_of_none hl
    · rw [order_of_numbers ha hb, Double.compare?_eq_none_iff.mpr hnan]

/-- Only null has no order. -/
theorem eq_null_of_order (h : v.order l = .ok none) : v = .null := by
  obtain hnull | ⟨a, b, ha, hb⟩ | ⟨d, rfl, hl⟩ | ⟨s, rfl, htext⟩ := sides v l
  · exact hnull
  · rw [order_of_numbers ha hb] at h
    cases hc : a.compare? b <;> simp [hc] at h
  · simp [order_number_of_none hl] at h
  · simp [order_text htext] at h

/-- Any other value has an order where it does not clash. -/
theorem exists_order (hne : v ≠ .null) (h : ∀ m, ¬ v.Clashes l m) :
    ∃ o, v.order l = .ok (some o) := by
  cases ho : v.order l with
  | error m => exact absurd (order_eq_error_iff.mp ho) (h m)
  | ok o =>
    cases o with
    | none => exact absurd (eq_null_of_order ho) hne
    | some o => exact ⟨o, rfl⟩

/-- **Equality and order agree.** -/
theorem equals_of_order {o : Ordering} (h : v.order l = .ok (some o)) :
    v.equals l = (o == .eq) := by
  obtain rfl | ⟨a, b, ha, hb⟩ | ⟨d, rfl, hl⟩ | ⟨s, rfl, htext⟩ := sides v l
  · simp [order] at h
  · rw [order_of_numbers ha hb] at h
    cases hc : a.compare? b with
    | none => simp [hc] at h
    | some o' =>
      obtain rfl : o' = o := by simpa [hc] using h
      simp [equals, ha, hb, Double.equals, hc]
  · simp [order_number_of_none hl] at h
  · obtain rfl : compare s l.text = o := by simpa [order_text htext] using h
    have hequals : (Value.text s).equals l = (s == l.text) := by
      rcases htext with hs | hl
      · simp [equals, number?, text?, hs]
      · simp [equals, text?, hl]
    rw [hequals, Bool.eq_iff_iff]
    simp

end Value

/-! ### The six comparisons -/

namespace Comparison

variable {v : Value} {l : Literal}

/-- **All comparisons follow from the order**, if there is one. -/
theorem test_of_order {o : Ordering} (h : v.order l = .ok (some o)) (op : Comparison) :
    op.test v l = .ok (op.admits o) := by
  have hequals := Value.equals_of_order h
  cases op <;> simp [test, h, hequals, admits, bne]

/-- Null is different from every literal, and that is all. -/
theorem test_null (op : Comparison) : op.test .null l = .ok (decide (op = .ne)) := by
  cases op <;> simp [test, Value.equals, Value.order, Value.number?, Value.text?]

/-- Just one of `<`, `=` and `>` admits an order, and the other three follow from these. -/
theorem admits_fits (o : Ordering) :
    (∃! op, op ∈ [.lt, .eq, .gt] ∧ admits op o) ∧
      admits .le o = (admits .lt o || admits .eq o) ∧
      admits .ge o = (admits .gt o || admits .eq o) ∧
      admits .ne o = (admits .lt o || admits .gt o) := by
  cases o <;> decide

/-- A comparison fails as the order does, if it asks for it. -/
theorem test_eq_error_iff {op : Comparison} {m : Mismatch} :
    op.test v l = .error m ↔ op.isOrdering ∧ v.Clashes l m := by
  rw [← Value.order_eq_error_iff]
  cases ho : v.order l with
  | error m' => cases op <;> simp [test, isOrdering, ho]
  | ok o => cases o <;> cases op <;> simp [test, isOrdering, ho]

end Comparison

theorem Literal.number_ofOperand (raw : String) :
    (Literal.ofOperand raw).number = readNumber? (Literal.ofOperand raw).text := by
  simp only [ofOperand]

/-- A value clashes with a literal that was written in a query if it is a number and the literal is
none, or if it is no number. -/
theorem Value.exists_clashes_iff {v : Value} {raw : String} :
    (∃ m, v.Clashes (Literal.ofOperand raw) m) ↔
      (∃ d, v = .number d ∧ (Literal.ofOperand raw).number = none) ∨ v = .number .nan := by
  constructor
  · rintro ⟨_, ⟨rfl, hl⟩ | ⟨ha, hb, rfl | rfl⟩⟩
    · exact .inl ⟨_, rfl, hl⟩
    · refine .inr ?_
      cases v with
      | null => simp [number?] at ha
      | number d => simpa [number?] using ha
      | text s => exact (ne_nan_of_readNumber? (s := s) ha rfl).elim
    · rw [Literal.number_ofOperand] at hb
      exact absurd rfl (ne_nan_of_readNumber? hb)
  · rintro (⟨d, rfl, hl⟩ | rfl)
    · exact ⟨_, .numberAgainstText rfl hl⟩
    · cases hl : (Literal.ofOperand raw).number with
      | none => exact ⟨_, .numberAgainstText rfl hl⟩
      | some b => exact ⟨_, .unordered rfl hl (.inl rfl)⟩

namespace Predicate

variable {r : Record} {field : String} {op : Comparison} {literal : Literal}

theorem evaluate_compare_eq_ok_iff {b : Bool} :
    evaluate r (.compare field op literal) = .ok b ↔ op.test (r.value field) literal = .ok b := by
  rw [evaluate, mapError_eq_ok_iff]

/-- **A comparison fails on a record** if it is an ordering and the value clashes with the literal.
-/
theorem evaluate_compare_eq_error_iff {e : FilterError} :
    evaluate r (.compare field op literal) = .error e ↔
      op.isOrdering ∧ ∃ m, (r.value field).Clashes literal m ∧ .typeMismatch field m = e := by
  simp only [evaluate, mapError_eq_error_iff, Comparison.test_eq_error_iff, and_assoc,
    exists_and_left]

/-- Where there is an order, each comparison has the answer that admits it. -/
theorem evaluate_compare_of_order {o : Ordering} (h : (r.value field).order literal = .ok (some o))
    (op : Comparison) : evaluate r (.compare field op literal) = .ok (op.admits o) :=
  evaluate_compare_eq_ok_iff.mpr (Comparison.test_of_order h op)

/-- Null is different from every literal, and that is all. -/
theorem evaluate_compare_of_null (h : r.value field = .null) (op : Comparison) :
    evaluate r (.compare field op literal) = .ok (decide (op = .ne)) :=
  evaluate_compare_eq_ok_iff.mpr (h ▸ Comparison.test_null op)

/-- **The six comparisons fit together.** The four orderings fail together, for a number against a
text and for what is no number. Otherwise just one of `<`, `=` and `>` holds of a value other than
null, and the other three follow from these. -/
theorem evaluate_comparisons (r : Record) (field raw : String) :
    let value := r.value field
    let literal := Literal.ofOperand raw
    let result := fun op => evaluate r (.compare field op literal)
    ((∃ detail, ∀ op, op.isOrdering → result op = .error (.typeMismatch field detail)) ∨
      ∃ answer : Comparison → Bool, ∀ op, result op = .ok (answer op)) ∧
    (∀ op, op.isOrdering → ((∃ e, result op = .error e) ↔
      (∃ d, value = .number d ∧ literal.number = none) ∨ value = .number .nan)) ∧
    (∀ answer : Comparison → Bool, (∀ op, result op = .ok (answer op)) → value ≠ .null →
      (∃! op, op ∈ [.lt, .eq, .gt] ∧ answer op) ∧
      answer .le = (answer .lt || answer .eq) ∧ answer .ge = (answer .gt || answer .eq) ∧
      answer .ne = (answer .lt || answer .gt)) ∧
    (value = .null → ∀ op, result op = .ok (decide (op = .ne))) := by
  intro value literal result
  refine ⟨?_, fun op hop => ?_, fun answer hanswer hne => ?_, evaluate_compare_of_null⟩
  · cases ho : value.order literal with
    | error m =>
      refine .inl ⟨m, fun op hop => evaluate_compare_eq_error_iff.mpr ⟨hop, m, ?_, rfl⟩⟩
      exact Value.order_eq_error_iff.mp ho
    | ok o =>
      cases o with
      | none =>
        have hnull := Value.eq_null_of_order ho
        exact .inr ⟨fun op => op = .ne, evaluate_compare_of_null hnull⟩
      | some o => exact .inr ⟨fun op => op.admits o, evaluate_compare_of_order ho⟩
  · rw [← Value.exists_clashes_iff]
    simp only [result, evaluate_compare_eq_error_iff]
    constructor
    · rintro ⟨e, -, m, hm, -⟩
      exact ⟨m, hm⟩
    · rintro ⟨m, hm⟩
      exact ⟨_, hop, m, hm, rfl⟩
  · -- an ordering that answers rules every clash out
    have hclash : ∀ m, ¬ value.Clashes literal m := fun m hm => by
      have herror : result .lt = .error (.typeMismatch field m) :=
        evaluate_compare_eq_error_iff.mpr ⟨rfl, m, hm, rfl⟩
      simp [hanswer] at herror
    obtain ⟨o, ho⟩ := Value.exists_order hne hclash
    have hadmits : ∀ op, answer op = op.admits o := fun op =>
      Except.ok.inj ((hanswer op).symm.trans (evaluate_compare_of_order ho op))
    simp only [hadmits]
    exact Comparison.admits_fits o

/-- A text that is a numeral is ordered as a number, and a name that the record lacks is null. -/
theorem evaluate_comparisons_numerals :
    let r := Record.ofAttributes [("codigo", .text "11")]
    let literal := Literal.ofOperand "'100'"
    (∀ op, Comparison.isOrdering op → ¬ ∃ e, evaluate r (.compare "codigo" op literal) = .error e) ∧
    (∃! op, op ∈ [.lt, .eq, .gt] ∧ Comparison.admits op .lt) ∧
    ∀ op, evaluate r (.compare "poblacion" op literal) = .ok (decide (op = .ne)) := by
  intro r literal
  have hanswer : ∀ op, evaluate r (.compare "codigo" op literal) = .ok (op.admits .lt) := by
    intro op
    cases op <;> decide +kernel
  have hcodigo := evaluate_comparisons r "codigo" "'100'"
  have hpoblacion := evaluate_comparisons r "poblacion" "'100'"
  have hvalue : r.value "codigo" = .text "11" := by decide +kernel
  refine ⟨fun op hop => ?_, ?_, hpoblacion.2.2.2 (by decide +kernel)⟩
  · rw [hcodigo.2.1 op hop, hvalue]
    simp
  · exact (hcodigo.2.2.1 (fun op => op.admits .lt) hanswer (by simp [hvalue])).1

end Predicate

end FeatureQuery
