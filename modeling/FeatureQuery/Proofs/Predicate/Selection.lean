import FeatureQuery.Predicate.Select
import FeatureQuery.Proofs.Outcome

/-!
# What a selection finds

A selection succeeds when the test has an answer on every item, and finds the items that pass, in
order (`select_eq_ok_iff`); otherwise it fails as the test does on the first item without an answer
(`select_eq_error_iff`). Where the items are divided into parts that are searched separately, the
finds of the parts make up the finds of the whole (`select_flatten_eq_ok_iff`).

A test may ask another one about some of the items only. The selection then succeeds or fails with
the other test on those items (`exists_select_guarded_iff`, `filter_of_select_guarded`,
`first_failure_of_select_guarded`).
-/

namespace FeatureQuery

variable {α β ε : Type}

/-- Whether the answer of a test is yes. -/
def passes (test : α → Except ε Bool) (a : α) : Bool :=
  match test a with
  | .ok b => b
  | .error _ => false

theorem passes_eq {test : α → Except ε Bool} {a : α} {b : Bool} (h : test a = .ok b) :
    passes test a = b := by
  rw [passes, h]

/-- **A selection succeeds** when the test has an answer on every item, and finds those that
pass. -/
theorem select_eq_ok_iff {test : α → Except ε Bool} {items out : List α} :
    select test items = .ok out ↔
      (∀ a ∈ items, ∃ b, test a = .ok b) ∧ items.filter (passes test) = out := by
  induction items generalizing out with
  | nil => simp [select_nil]
  | cons a items ih =>
    rw [select_cons]
    cases h : test a with
    | error e => simp [h]
    | ok b =>
      rw [map_eq_ok_iff]
      constructor
      · rintro ⟨rest, hrest, rfl⟩
        obtain ⟨hall, rfl⟩ := ih.mp hrest
        refine ⟨List.forall_mem_cons.mpr ⟨⟨b, h⟩, hall⟩, ?_⟩
        rw [List.filter_cons, passes_eq h]
      · rintro ⟨hall, rfl⟩
        refine ⟨_, ih.mpr ⟨(List.forall_mem_cons.mp hall).2, rfl⟩, ?_⟩
        rw [List.filter_cons, passes_eq h]

theorem exists_select_eq_ok_iff {test : α → Except ε Bool} {items : List α} :
    (∃ out, select test items = .ok out) ↔ ∀ a ∈ items, ∃ b, test a = .ok b :=
  ⟨fun ⟨_, h⟩ => (select_eq_ok_iff.mp h).1, fun h => ⟨_, select_eq_ok_iff.mpr ⟨h, rfl⟩⟩⟩

/-- **A selection fails** as the test does on the first item that it has no answer for. -/
theorem select_eq_error_iff {test : α → Except ε Bool} {items : List α} {e : ε} :
    select test items = .error e ↔
      ∃ before a after, items = before ++ a :: after ∧ (∀ x ∈ before, ∃ b, test x = .ok b) ∧
        test a = .error e := by
  induction items with
  | nil => simp [select_nil]
  | cons a items ih =>
    rw [select_cons]
    cases h : test a with
    | error e' =>
      constructor
      · intro he
        cases he
        exact ⟨[], a, items, rfl, by simp, h⟩
      · rintro ⟨before, x, after, heq, hall, hx⟩
        cases before with
        | nil =>
          obtain ⟨rfl, rfl⟩ := List.cons.inj heq
          rw [h] at hx
          cases hx
          rfl
        | cons y before =>
          obtain ⟨rfl, rfl⟩ := List.cons.inj heq
          obtain ⟨b, hb⟩ := hall a List.mem_cons_self
          rw [h] at hb
          cases hb
    | ok b =>
      simp only [map_eq_error_iff, ih]
      constructor
      · rintro ⟨before, x, after, rfl, hall, hx⟩
        exact ⟨a :: before, x, after, rfl, List.forall_mem_cons.mpr ⟨⟨b, h⟩, hall⟩, hx⟩
      · rintro ⟨before, x, after, heq, hall, hx⟩
        cases before with
        | nil =>
          obtain ⟨rfl, rfl⟩ := List.cons.inj heq
          rw [h] at hx
          cases hx
        | cons y before =>
          obtain ⟨rfl, rfl⟩ := List.cons.inj heq
          exact ⟨before, x, after, rfl, (List.forall_mem_cons.mp hall).2, hx⟩

/-- Selecting from items that were made of others. -/
theorem select_map (test : β → Except ε Bool) (f : α → β) (items : List α) :
    select test (items.map f) = (select (fun a => test (f a)) items).map (List.map f) := by
  induction items with
  | nil => rfl
  | cons a items ih =>
    rw [List.map_cons, select_cons, select_cons]
    cases test (f a) with
    | error e => rfl
    | ok b =>
      rw [ih]
      cases select (fun a => test (f a)) items with
      | error e => rfl
      | ok rest => cases b <;> rfl

/-- **Selecting in parts**: what the parts give one after the other is what the whole gives. -/
theorem select_flatten_eq_ok_iff {test : α → Except ε Bool} {parts : List (List α)}
    {out : List α} :
    select test parts.flatten = .ok out ↔
      ∃ found, parts.mapM (select test) = .ok found ∧ found.flatten = out := by
  induction parts generalizing out with
  | nil => simp [select_nil, pure, Except.pure]
  | cons part parts ih =>
    simp only [List.flatten_cons, List.mapM_cons, bind_eq_ok_iff, pure, Except.pure]
    constructor
    · intro h
      obtain ⟨hall, rfl⟩ := select_eq_ok_iff.mp h
      obtain ⟨hpart, hparts⟩ := List.forall_mem_append.mp hall
      obtain ⟨found, hfound, hflat⟩ := ih.mp (select_eq_ok_iff.mpr ⟨hparts, rfl⟩)
      refine ⟨_, ⟨_, select_eq_ok_iff.mpr ⟨hpart, rfl⟩, found, hfound, rfl⟩, ?_⟩
      rw [List.flatten_cons, hflat, List.filter_append]
    · rintro ⟨_, ⟨head, hhead, found, hfound, h⟩, rfl⟩
      cases h
      obtain ⟨hpart, rfl⟩ := select_eq_ok_iff.mp hhead
      obtain ⟨hparts, hflat⟩ := select_eq_ok_iff.mp (ih.mpr ⟨found, hfound, rfl⟩)
      refine select_eq_ok_iff.mpr ⟨List.forall_mem_append.mpr ⟨hpart, hparts⟩, ?_⟩
      rw [List.flatten_cons, ← hflat, List.filter_append]

/-! ### Tests that ask another test -/

section Guarded

variable {test inner : α → Except ε Bool} {guard : α → Bool} {items : List α}
  {answer : α → Bool → Bool} {otherwise : α → Bool}

/-- A test that asks another one about guarded items has an answer when the other one has. -/
theorem exists_select_guarded_iff
    (h : ∀ a ∈ items, test a = if guard a then (inner a).map (answer a) else .ok (otherwise a)) :
    (∃ out, select test items = .ok out) ↔ ∀ a ∈ items.filter guard, ∃ b, inner a = .ok b := by
  rw [exists_select_eq_ok_iff]
  constructor
  · intro hall a ha
    obtain ⟨hmem, hg⟩ := List.mem_filter.mp ha
    obtain ⟨b, hb⟩ := hall a hmem
    rw [h a hmem, if_pos hg] at hb
    obtain ⟨c, hc, -⟩ := map_eq_ok_iff.mp hb
    exact ⟨c, hc⟩
  · intro hall a hmem
    rw [h a hmem]
    by_cases hg : guard a
    · obtain ⟨b, hb⟩ := hall a (List.mem_filter.mpr ⟨hmem, hg⟩)
      exact ⟨answer a b, by rw [if_pos hg, hb]; rfl⟩
    · exact ⟨otherwise a, by rw [if_neg hg]⟩

/-- What a test finds that asks another one about guarded items. -/
theorem filter_of_select_guarded
    (h : ∀ a ∈ items, test a = if guard a then (inner a).map (answer a) else .ok (otherwise a))
    {out : List α} (hout : select test items = .ok out) :
    out = items.filter fun a => if guard a then answer a (passes inner a) else otherwise a := by
  obtain ⟨hall, rfl⟩ := select_eq_ok_iff.mp hout
  refine List.filter_congr fun a ha => ?_
  obtain ⟨b, hb⟩ := hall a ha
  rw [passes_eq hb]
  rw [h a ha] at hb
  by_cases hg : guard a
  · rw [if_pos hg] at hb ⊢
    obtain ⟨c, hc, rfl⟩ := map_eq_ok_iff.mp hb
    rw [passes_eq hc]
  · rw [if_neg hg] at hb ⊢
    exact (Except.ok.inj hb).symm

/-- A test that asks another one about guarded items fails first where the other one does. -/
theorem first_failure_of_select_guarded
    (h : ∀ a ∈ items, test a = if guard a then (inner a).map (answer a) else .ok (otherwise a))
    {e : ε} (he : select test items = .error e) :
    ∃ before a after, items.filter guard = before ++ a :: after ∧
      (∀ x ∈ before, ∃ b, inner x = .ok b) ∧ inner a = .error e := by
  obtain ⟨before, a, after, rfl, hall, ha⟩ := select_eq_error_iff.mp he
  have hbefore := (exists_select_guarded_iff fun x hx => h x (List.mem_append_left _ hx)).mp
    (exists_select_eq_ok_iff.mpr hall)
  rw [h a (by simp)] at ha
  by_cases hg : guard a
  · refine ⟨before.filter guard, a, after.filter guard, ?_, hbefore, ?_⟩
    · rw [List.filter_append, List.filter_cons_of_pos hg]
    · rw [if_pos hg] at ha
      exact map_eq_error_iff.mp ha
  · simp [hg] at ha

end Guarded

end FeatureQuery
