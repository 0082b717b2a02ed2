import FeatureQuery.Proofs.Predicate.Comparing
import Mathlib.Data.List.Perm.Basic

/-!
# Answers that hang on no failure

The tests of a predicate are the comparisons and matches that it is made of. Some of them may fail
on a record, and evaluation goes around those that do not matter. A failing test may be **settled**
either way: `Settles r p b` says that `b` is what `p` comes to on `r` by classical logic, where
every test has its own answer and each failing test, wherever it stands, some truth value. An answer
of `evaluate` is what the predicate comes to however its failing tests are settled
(`Settles.eq_of_evaluate`), and a predicate comes to the same values in whatever order its operands
are written (`Reordered.settles`).

Main statement: `evaluate_settles`, which also tells where a failure comes from.
-/

namespace FeatureQuery

namespace Connective

/-- What the connective makes of the values of all its operands. -/
def value : Connective → List Bool → Bool
  | .and, bs => bs.all id
  | .or, bs => bs.any id

theorem value_nil (connective : Connective) : connective.value [] = connective.neutral := by
  cases connective <;> rfl

/-- The first operand decides unless its value is neutral. -/
theorem value_cons (connective : Connective) (b : Bool) (bs : List Bool) :
    connective.value (b :: bs) = if b = connective.neutral then connective.value bs else b := by
  cases connective <;> cases b <;> simp [value, neutral]

/-- The order of the operands does not matter. -/
theorem value_perm (connective : Connective) {bs cs : List Bool} (h : bs.Perm cs) :
    connective.value bs = connective.value cs := by
  cases connective with
  | and => exact h.all_eq
  | or => exact h.any_eq

end Connective

namespace Predicate

/-! ### Settling the tests that fail -/

/-- The predicate comes to the value on the record by classical logic, where a test that fails may
have either truth value. -/
inductive Settles (r : Record) : Predicate → Bool → Prop where
  /-- A comparison has its own answer, if it has one. -/
  | compare {field : String} {op : Comparison} {literal : Literal} {b : Bool}
      (own : ∀ a, evaluate r (.compare field op literal) = .ok a → b = a) :
      Settles r (.compare field op literal) b
  /-- A match has its own answer, if it has one. -/
  | like {field : String} {pattern : LikePattern} {b : Bool}
      (own : ∀ a, evaluate r (.like field pattern) = .ok a → b = a) :
      Settles r (.like field pattern) b
  /-- The opposite of what the operand comes to. -/
  | not {operand : Predicate} {b : Bool} (settles : Settles r operand b) :
      Settles r (.not operand) !b
  /-- What the connective makes of all operands, whether they are evaluated or not. -/
  | join {connective : Connective} {operands : List Predicate} {bs : List Bool}
      (settles : List.Forall₂ (Settles r) operands bs) :
      Settles r (.join connective operands) (connective.value bs)

variable {r : Record}

mutual

/-- **An answer is what the predicate comes to**, however its failing tests are settled. -/
theorem Settles.eq_of_evaluate : ∀ {p : Predicate} {b v : Bool}, Settles r p v →
    evaluate r p = .ok b → v = b
  | .compare .., _, _, .compare own, h => own _ h
  | .like .., _, _, .like own, h => own _ h
  | .not operand, _, _, .not settles, h => by
    obtain ⟨a, ha, rfl⟩ := map_eq_ok_iff.mp h
    rw [settles.eq_of_evaluate ha]
  | .join connective operands, _, _, .join settles, h => value_eq_of_evaluateAll settles h

theorem value_eq_of_evaluateAll {connective : Connective} : ∀ {ps : List Predicate} {b : Bool}
    {bs : List Bool}, List.Forall₂ (Settles r) ps bs → evaluateAll r connective ps = .ok b →
      connective.value bs = b
  | [], _, _, .nil, h => by
    cases h
    exact connective.value_nil
  | p :: ps, _, _, .cons settles rest, h => by
    obtain ⟨a, ha, h⟩ := bind_eq_ok_iff.mp h
    rw [connective.value_cons, settles.eq_of_evaluate ha]
    by_cases hneutral : a = connective.neutral
    · rw [if_pos hneutral] at h ⊢
      exact value_eq_of_evaluateAll rest h
    · rw [if_neg hneutral] at h ⊢
      exact Except.ok.inj h

end

mutual

/-- There is a way to settle the tests that fail. -/
theorem exists_settles : ∀ p : Predicate, ∃ b, Settles r p b
  | .compare field op literal => by
    cases h : evaluate r (.compare field op literal) with
    | ok a => exact ⟨a, .compare fun b hb => Except.ok.inj (h.symm.trans hb)⟩
    | error e => exact ⟨false, .compare fun b hb => by simp [h] at hb⟩
  | .like .. => ⟨_, .like fun _ h => Except.ok.inj h⟩
  | .not operand => by
    obtain ⟨b, hb⟩ := exists_settles operand
    exact ⟨_, .not hb⟩
  | .join connective operands => by
    obtain ⟨bs, hbs⟩ := exists_settles_all operands
    exact ⟨_, .join hbs⟩

theorem exists_settles_all : ∀ ps : List Predicate, ∃ bs, List.Forall₂ (Settles r) ps bs
  | [] => ⟨[], .nil⟩
  | p :: ps => by
    obtain ⟨b, hb⟩ := exists_settles p
    obtain ⟨bs, hbs⟩ := exists_settles_all ps
    exact ⟨b :: bs, .cons hb hbs⟩

end

/-- **Where there is an answer** the predicate comes to it and to nothing else. -/
theorem settles_iff_of_evaluate {p : Predicate} {b : Bool} (h : evaluate r p = .ok b) {v : Bool} :
    Settles r p v ↔ v = b := by
  constructor
  · intro hv
    exact hv.eq_of_evaluate h
  · rintro rfl
    obtain ⟨b, hb⟩ := exists_settles (r := r) p
    rwa [hb.eq_of_evaluate h] at hb

/-! ### The order of the operands -/

/-- Two predicates that differ only in the order in which operands of `and` and `or` are written. -/
inductive Reordered : Predicate → Predicate → Prop where
  /-- Nothing is moved. -/
  | refl (p : Predicate) : Reordered p p
  /-- One change after the other. -/
  | trans {p q s : Predicate} (first : Reordered p q) (second : Reordered q s) : Reordered p s
  /-- The operands of a connective in another order. -/
  | order (connective : Connective) {ps qs : List Predicate} (perm : ps.Perm qs) :
      Reordered (.join connective ps) (.join connective qs)
  /-- A change under `not`. -/
  | not {p q : Predicate} (inner : Reordered p q) : Reordered (.not p) (.not q)
  /-- A change in one operand of a connective. -/
  | operand (connective : Connective) (before after : List Predicate) {p q : Predicate}
      (inner : Reordered p q) :
      Reordered (.join connective (before ++ p :: after)) (.join connective (before ++ q :: after))

/-- One of several predicates may give way to another that comes to the same values. -/
theorem forall₂_settles_replace {p q : Predicate} (h : ∀ b, Settles r p b → Settles r q b)
    {before after : List Predicate} {bs : List Bool}
    (hbs : List.Forall₂ (Settles r) (before ++ p :: after) bs) :
    List.Forall₂ (Settles r) (before ++ q :: after) bs := by
  induction before generalizing bs with
  | nil =>
    obtain ⟨b, rest, hb, hrest, rfl⟩ := List.forall₂_cons_left_iff.mp hbs
    exact .cons (h b hb) hrest
  | cons x before ih =>
    obtain ⟨b, rest, hb, hrest, rfl⟩ := List.forall₂_cons_left_iff.mp hbs
    exact .cons hb (ih hrest)

/-- **The order of the operands does not matter** to what a predicate comes to. -/
theorem Reordered.settles {p q : Predicate} (h : Reordered p q) {b : Bool}
    (hp : Settles r p b) : Settles r q b := by
  induction h generalizing b with
  | refl p => exact hp
  | trans _ _ ihFirst ihSecond => exact ihSecond (ihFirst hp)
  | order connective perm =>
    cases hp with
    | join settles =>
      -- the values are moved along with the operands
      obtain ⟨cs, hcs, hperm⟩ := List.perm_comp_forall₂ perm.symm settles
      rw [← connective.value_perm hperm]
      exact .join hcs
  | not _ ih =>
    cases hp with
    | not settles => exact .not (ih settles)
  | operand _ before after _ ih =>
    cases hp with
    | join settles => exact .join (forall₂_settles_replace (fun _ => ih) settles)

/-! ### Where a failure comes from -/

mutual

/-- The comparisons and matches of a predicate, in order. -/
def tests : Predicate → List Predicate
  | .compare field op literal => [.compare field op literal]
  | .like field pattern => [.like field pattern]
  | .not operand => tests operand
  | .join _ operands => testsOfAll operands

/-- The comparisons and matches of the predicates of a list, in order. -/
def testsOfAll : List Predicate → List Predicate
  | [] => []
  | p :: ps => tests p ++ testsOfAll ps

end

mutual

/-- **A predicate fails as one of its comparisons does.** -/
theorem exists_compare_of_evaluate {e : FilterError} : ∀ {p : Predicate},
    evaluate r p = .error e → ∃ field op literal, .compare field op literal ∈ p.tests ∧
      evaluate r (.compare field op literal) = .error e
  | .compare .., h => ⟨_, _, _, List.mem_singleton.mpr rfl, h⟩
  | .like .., h => by simp [evaluate] at h
  | .not operand, h => exists_compare_of_evaluate (p := operand) (map_eq_error_iff.mp h)
  | .join _ operands, h => by
    rw [evaluate] at h
    exact exists_compare_of_evaluateAll h

theorem exists_compare_of_evaluateAll {connective : Connective} {e : FilterError} :
    ∀ {ps : List Predicate}, evaluateAll r connective ps = .error e →
      ∃ field op literal, .compare field op literal ∈ testsOfAll ps ∧
        evaluate r (.compare field op literal) = .error e
  | [], h => by simp [evaluateAll] at h
  | p :: ps, h => by
    rw [evaluateAll] at h
    cases hp : evaluate r p with
    | error e' =>
      rw [hp] at h
      cases h
      obtain ⟨field, op, literal, hmem, hfail⟩ := exists_compare_of_evaluate hp
      exact ⟨field, op, literal, List.mem_append_left _ hmem, hfail⟩
    | ok b =>
      rw [hp, ok_bind] at h
      split at h
      · obtain ⟨field, op, literal, hmem, hfail⟩ := exists_compare_of_evaluateAll h
        exact ⟨field, op, literal, List.mem_append_right _ hmem, hfail⟩
      · simp at h

end

/-- **An answer hangs on no test that fails.** It is what the predicate comes to by classical logic,
however the failing tests are settled, and so it is the answer of any reordered predicate that has
one. A predicate fails only with the failure of one of its orderings, on a value that clashes with
the literal. -/
theorem evaluate_settles (r : Record) (p : Predicate) :
    (∀ b, evaluate r p = .ok b → ∀ v, Settles r p v ↔ v = b) ∧
    (∀ q a b, Reordered p q → evaluate r p = .ok a → evaluate r q = .ok b → a = b) ∧
    (∀ e, evaluate r p = .error e → ∃ field op literal detail,
      .compare field op literal ∈ p.tests ∧ op.isOrdering ∧
      evaluate r (.compare field op literal) = .error e ∧ e = .typeMismatch field detail ∧
      (r.value field).Clashes literal detail) ∧
    ((∀ field op literal, .compare field op literal ∈ p.tests → ¬ op.isOrdering) →
      ∃ b, evaluate r p = .ok b) := by
  have hfails : ∀ e, evaluate r p = .error e → ∃ field op literal detail,
      .compare field op literal ∈ p.tests ∧ op.isOrdering ∧
      evaluate r (.compare field op literal) = .error e ∧ e = .typeMismatch field detail ∧
      (r.value field).Clashes literal detail := by
    intro e he
    obtain ⟨field, op, literal, hmem, hfail⟩ := exists_compare_of_evaluate he
    obtain ⟨hop, detail, hclash, rfl⟩ := evaluate_compare_eq_error_iff.mp hfail
    exact ⟨field, op, literal, detail, hmem, hop, hfail, rfl, hclash⟩
  refine ⟨fun b hb v => settles_iff_of_evaluate hb, fun q a b hq ha hb => ?_, hfails,
    fun hnone => ?_⟩
  · have hp : Settles r p a := (settles_iff_of_evaluate ha).mpr rfl
    exact (settles_iff_of_evaluate hb).mp (hq.settles hp)
  · cases he : evaluate r p with
    | ok b => exact ⟨b, rfl⟩
    | error e =>
      obtain ⟨field, op, literal, -, hmem, hop, -⟩ := hfails e he
      exact absurd hop (hnone field op literal hmem)

/-- A number that cannot be ordered against a text does not matter beside a condition that holds, in
whatever order they are written, and is what fails under `not`. -/
theorem evaluate_settles_mismatch :
    let r := Record.ofAttributes [("nombre", .text "Cadiz"),
      ("poblacion", .number (Double.ofInt 116027))]
    let holds := compare "nombre" .eq (Literal.ofOperand "Cadiz")
    let other := like "nombre" (LikePattern.ofString "S.*")
    let fails := compare "poblacion" .gt (Literal.ofOperand "mucha")
    let e := FilterError.typeMismatch "poblacion"
      (.numberAgainstText (Double.ofInt 116027) "mucha")
    (evaluate r (.join .or [other, holds, fails]) = .ok true ∧
      ∀ v, Settles r (.join .or [other, holds, fails]) v ↔ v = true) ∧
    (∀ b, evaluate r (.join .or [holds, fails, other]) = .ok b → true = b) ∧
    (evaluate r (.not fails) = .error e ∧ ∃ field op literal detail,
      .compare field op literal ∈ (Predicate.not fails).tests ∧ op.isOrdering ∧
      evaluate r (.compare field op literal) = .error e ∧ e = .typeMismatch field detail ∧
      (r.value field).Clashes literal detail) ∧
    ∃ b, evaluate r (.join .and [other, .not holds]) = .ok b := by
  intro r holds other fails e
  have hanswer : evaluate r (.join .or [other, holds, fails]) = .ok true := by decide +kernel
  have hfailure : evaluate r (.not fails) = .error e := by decide +kernel
  have hreordered : Reordered (.join .or [other, holds, fails]) (.join .or [holds, fails, other]) :=
    .order .or (List.perm_append_comm : ([other] ++ [holds, fails]).Perm _)
  have hjoined := evaluate_settles r (.join .or [other, holds, fails])
  refine ⟨⟨hanswer, hjoined.1 true hanswer⟩, fun b hb => hjoined.2.1 _ _ _ hreordered hanswer hb,
    ⟨hfailure, (evaluate_settles r (.not fails)).2.2.1 e hfailure⟩, ?_⟩
  refine (evaluate_settles r (.join .and [other, .not holds])).2.2.2 fun field op literal hmem => ?_
  have hop : op = .eq := by
    simp [tests, testsOfAll, other, holds] at hmem
    exact hmem.2.1
  simp [hop, Comparison.isOrdering]

end Predicate

end FeatureQuery
