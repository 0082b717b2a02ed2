import FeatureQuery.Proofs.Predicate.Evaluation
import FeatureQuery.Proofs.Predicate.Selection
import Mathlib.Data.List.Basic

/-!
# Searching at once, one by one, and in parts

Records may be searched in three ways. `select` takes all hits at once, or the first failure. A
reader may ask for one hit after the other, of which a failure is one: `nextHit` goes on from where
the last answer was found and looks no further than the next one, and `firstHits` is what so many
questions bring. And parts of the records may be searched apart from each other, in whatever order:
`Gathers` says what may come of it, which is the finds of all parts, or the failure of any part that
fails.

All three agree (`Predicate.searches_agree`). What a reader is given are the first of all hits
(`firstHits_eq_take`), so that nothing behind the last of them matters (`firstHits_append`), and a
failure does not keep what comes after it from being found (`firstHits_after_error`). Parts are
found together exactly when the whole is (`gathers_ok_iff`), although they may fail otherwise.
-/

namespace FeatureQuery

variable {α ε : Type} {test : α → Except ε Bool} {items : List α}

/-! ### One by one -/

/-- The next hit, and the items after it, which were not looked at. -/
def nextHit (test : α → Except ε Bool) : List α → Option (Except ε α × List α)
  | [] => none
  | a :: rest =>
    match test a with
    | .ok true => some (.ok a, rest)
    | .ok false => nextHit test rest
    | .error e => some (.error e, rest)

/-- The hits that are found when so many are asked for: as many, or all that there are. -/
def firstHits (test : α → Except ε Bool) : Nat → List α → List (Except ε α)
  | 0, _ => []
  | k + 1, items =>
    match nextHit test items with
    | none => []
    | some (hit, rest) => hit :: firstHits test k rest

theorem hits_append (test : α → Except ε Bool) (items more : List α) :
    hits test (items ++ more) = hits test items ++ hits test more :=
  List.filterMap_append

/-- **One question** brings the first of the hits, and leaves the others. -/
theorem hits_eq (test : α → Except ε Bool) (items : List α) :
    hits test items =
      match nextHit test items with
      | none => []
      | some (hit, rest) => hit :: hits test rest := by
  fun_induction nextHit test items with
  | case1 => rfl
  | case2 a rest h => simp [hits, h]
  | case3 a rest h ih =>
    rw [← ih]
    simp [hits, h]
  | case4 a rest e h => simp [hits, h]

/-- **So many questions** bring as many of the hits. -/
theorem firstHits_eq_take (test : α → Except ε Bool) (k : Nat) (items : List α) :
    firstHits test k items = (hits test items).take k := by
  induction k generalizing items with
  | zero => rfl
  | succ k ih =>
    rw [firstHits, hits_eq]
    cases nextHit test items with
    | none => rfl
    | some found =>
      obtain ⟨hit, rest⟩ := found
      simp only [ih, List.take_succ_cons]

/-- **What comes after the last hit that is asked for** does not matter. -/
theorem firstHits_append {k : Nat} (h : (firstHits test k items).length = k) (more : List α) :
    firstHits test k (items ++ more) = firstHits test k items := by
  simp only [firstHits_eq_take, List.length_take] at h ⊢
  rw [hits_append, List.take_append_of_le_length (by omega)]

/-- **A failure is passed like any other hit**: what is found after it is found in what comes after
it. -/
theorem firstHits_after_error (test : α → Except ε Bool) (items : List α) {a : α} {e : ε}
    (h : test a = .error e) (k : Nat) (more : List α) :
    firstHits test ((hits test items).length + (k + 1)) (items ++ a :: more) =
      hits test items ++ .error e :: firstHits test k more := by
  have hhits : hits test (a :: more) = .error e :: hits test more := by simp [hits, h]
  rw [firstHits_eq_take, firstHits_eq_take, hits_append, hhits, List.take_length_add_append,
    List.take_succ_cons]

/-! ### In parts -/

/-- What may come of it when parts are searched apart from each other. -/
inductive Gathers (test : α → Except ε Bool) (parts : List (List α)) :
    Except ε (List α) → Prop where
  /-- Every part is searched to its end, and the finds are put together in the order of the
  parts. -/
  | ok {found : List (List α)} (all : parts.mapM (select test) = .ok found) :
      Gathers test parts (.ok found.flatten)
  /-- Some part fails, and its failure is the one that is told. -/
  | error {part : List α} {e : ε} (mem : part ∈ parts) (fails : select test part = .error e) :
      Gathers test parts (.error e)

theorem mapM_eq_ok_of_forall {β : Type} {f : α → Except ε β} {as : List α}
    (h : ∀ a ∈ as, ∃ b, f a = .ok b) : ∃ bs, as.mapM f = .ok bs := by
  induction as with
  | nil => exact ⟨[], rfl⟩
  | cons a as ih =>
    obtain ⟨⟨b, hb⟩, has⟩ := List.forall_mem_cons.mp h
    obtain ⟨bs, hbs⟩ := ih has
    exact ⟨b :: bs, by rw [List.mapM_cons, hb, ok_bind, hbs]; rfl⟩

/-- Something always comes of it. -/
theorem exists_gathers (test : α → Except ε Bool) (parts : List (List α)) :
    ∃ result, Gathers test parts result := by
  by_cases hall : ∀ part ∈ parts, ∃ found, select test part = .ok found
  · obtain ⟨found, hfound⟩ := mapM_eq_ok_of_forall hall
    exact ⟨_, .ok hfound⟩
  · obtain ⟨part, hmem, hpart⟩ : ∃ part ∈ parts, ¬ ∃ found, select test part = .ok found := by
      simpa using hall
    cases hselect : select test part with
    | ok found => exact absurd ⟨found, hselect⟩ hpart
    | error e => exact ⟨_, .error hmem hselect⟩

/-- The failure of a part is one of the test. -/
theorem exists_of_gathers_error {parts : List (List α)} {e : ε}
    (h : Gathers test parts (.error e)) : ∃ a ∈ parts.flatten, test a = .error e := by
  cases h with
  | error mem fails =>
    obtain ⟨before, a, after, rfl, -, ha⟩ := select_eq_error_iff.mp fails
    exact ⟨a, List.mem_flatten_of_mem mem (by simp), ha⟩

/-- **Parts are found together** exactly when the whole is. -/
theorem gathers_ok_iff {parts : List (List α)} {result : Except ε (List α)}
    (h : Gathers test parts result) (found : List α) :
    result = .ok found ↔ select test parts.flatten = .ok found := by
  cases h with
  | @ok lists all =>
    have hselect : select test parts.flatten = .ok lists.flatten :=
      select_flatten_eq_ok_iff.mpr ⟨lists, all, rfl⟩
    rw [hselect]
  | error mem fails =>
    obtain ⟨a, hmem, ha⟩ := exists_of_gathers_error (.error mem fails)
    refine iff_of_false (by simp) fun hselect => ?_
    obtain ⟨b, hb⟩ := (select_eq_ok_iff.mp hselect).1 a hmem
    rw [ha] at hb
    cases hb

/-! ### Predicates -/

/-- **All ways of searching agree.** At once, a search succeeds when the predicate has an answer on
every record, and finds those that pass, in order; otherwise it fails as the predicate does on the
first record without an answer. One by one, so many questions bring as many of the hits; those that
were found in some records are the same whatever records follow, and after a failure come the hits
of the records that follow it. In parts, wherever the records are divided, the outcome is a success
exactly when the search at once is one, and then it is the same; and it is a type mismatch
otherwise. -/
theorem Predicate.searches_agree (p : Predicate) (records : List Record) :
    (((∃ found, select p.evaluate records = .ok found) ↔
        ∀ r ∈ records, ∃ b, p.evaluate r = .ok b) ∧
      (∀ found, select p.evaluate records = .ok found →
        found = records.filter (passes p.evaluate)) ∧
      ∀ e, select p.evaluate records = .error e →
        ∃ before r after, records = before ++ r :: after ∧
          (∀ r' ∈ before, ∃ b, p.evaluate r' = .ok b) ∧ p.evaluate r = .error e) ∧
    ((∀ k, firstHits p.evaluate k records = (hits p.evaluate records).take k) ∧
      (∀ k more more', (firstHits p.evaluate k records).length = k →
        firstHits p.evaluate k (records ++ more) = firstHits p.evaluate k (records ++ more')) ∧
      ∀ k r e more, p.evaluate r = .error e →
        firstHits p.evaluate ((hits p.evaluate records).length + (k + 1)) (records ++ r :: more) =
          hits p.evaluate records ++ .error e :: firstHits p.evaluate k more) ∧
    ∀ parts : List (List Record), parts.flatten = records →
      (∃ result, Gathers p.evaluate parts result) ∧
      ∀ result, Gathers p.evaluate parts result →
        (∀ found, result = .ok found ↔ select p.evaluate records = .ok found) ∧
        ∀ e, result = .error e → ∃ field detail, e = .typeMismatch field detail := by
  refine ⟨⟨exists_select_eq_ok_iff, fun found h => (select_eq_ok_iff.mp h).2.symm,
    fun e h => select_eq_error_iff.mp h⟩, ⟨fun k => firstHits_eq_take _ k records,
    fun k more more' h => ?_, fun k r e more h => ?_⟩, ?_⟩
  · rw [firstHits_append h, firstHits_append h]
  · exact firstHits_after_error p.evaluate records h k more
  · rintro parts rfl
    refine ⟨exists_gathers _ parts, fun result h => ⟨gathers_ok_iff h, ?_⟩⟩
    rintro e rfl
    obtain ⟨r, -, hr⟩ := exists_of_gathers_error h
    exact exists_typeMismatch_of_evaluate hr

/-- A record on which the predicate fails stands between two that pass. Who asks once does not come
to it, who asks three times is given all of them, and who searches them at once or in two parts is
told of the failure. -/
theorem Predicate.searches_agree_mismatch :
    let p := Predicate.join .or [.compare "par" .eq (Literal.ofOperand "si"),
      .compare "id" .gt (Literal.ofOperand "abc")]
    let passing := Record.ofAttributes [("par", .text "si")]
    let failing := Record.ofAttributes [("id", .number (Double.ofInt 1))]
    let e := FilterError.typeMismatch "id" (.numberAgainstText (Double.ofInt 1) "abc")
    ((firstHits p.evaluate 1 [passing]).length = 1 ∧
      firstHits p.evaluate 1 ([passing] ++ [failing]) = firstHits p.evaluate 1 ([passing] ++ [])) ∧
    (p.evaluate failing = .error e ∧
      firstHits p.evaluate 3 ([passing] ++ failing :: [passing]) =
        [.ok passing, .error e, .ok passing]) ∧
    (select p.evaluate [passing, failing, passing] = .error e ∧
      ∃ before r after, [passing, failing, passing] = before ++ r :: after ∧
        (∀ r' ∈ before, ∃ b, p.evaluate r' = .ok b) ∧ p.evaluate r = .error e) ∧
    Gathers p.evaluate [[passing], [failing, passing]] (.error e) ∧
      ∃ field detail, e = .typeMismatch field detail := by
  intro p passing failing e
  have hpassing : p.evaluate passing = .ok true := by decide +kernel
  have hfailing : p.evaluate failing = .error e := by decide +kernel
  have hhits : hits p.evaluate [passing] = [.ok passing] := by simp [hits, hpassing]
  have hone : (firstHits p.evaluate 1 [passing]).length = 1 := by
    rw [firstHits_eq_take, hhits]
    rfl
  obtain ⟨-, ⟨-, hprefix, hafter⟩, -⟩ := p.searches_agree [passing]
  obtain ⟨⟨-, -, hfirst⟩, -, hparts⟩ := p.searches_agree [passing, failing, passing]
  have hselect : select p.evaluate [passing, failing, passing] = .error e := by
    simp [select, hits, collect, hpassing, hfailing, Except.map]
  have hgathers : Gathers p.evaluate [[passing], [failing, passing]] (.error e) :=
    .error (List.mem_cons_of_mem _ List.mem_cons_self) (by simp [select, hits, collect, hfailing])
  have hthree := hafter 1 failing e [passing] hfailing
  rw [hhits, firstHits_eq_take _ 1, hhits] at hthree
  exact ⟨⟨hone, hprefix 1 [failing] [] hone⟩, ⟨hfailing, hthree⟩, ⟨hselect, hfirst e hselect⟩,
    hgathers, ((hparts _ rfl).2 _ hgathers).2 e rfl⟩

end FeatureQuery
