import FeatureQuery.Proofs.Session.Matching

/-!
# Filters as set operations

Records are told apart by their positions in the layer, as `numberedMatches` gives them. To apply a
query is a set operation on the layer: `Mode.scope` is what the query is asked about, and
`Mode.selection` what is found afterwards, given what the active filter finds. Main statement: the
query is accepted when it has an answer on every record of the scope, what is found then is the
selection, and otherwise it is refused for the first record of the scope without an answer
(`apply_selects`).
-/

namespace FeatureQuery

namespace Mode

/-- The records that a query is asked about, given what the active filter finds: the whole layer,
what it finds, or what it does not find. -/
def scope (mode : Mode) (all selected : List (Record × Nat)) : List (Record × Nat) :=
  match mode with
  | .replace => all
  | .and => selected
  | .andNot => selected
  | .or => all.filter fun r => r.2 ∉ selected.map Prod.snd

/-- The records that are found afterwards, given those of which the query holds, in order. -/
def selection (mode : Mode) (holds : Record × Nat → Bool) (all selected : List (Record × Nat)) :
    List (Record × Nat) :=
  match mode with
  | .replace => all.filter holds
  | .and => selected.filter holds
  | .andNot => selected.filter fun r => !holds r
  | .or => all.filter fun r => r.2 ∈ selected.map Prod.snd || holds r

/-! ### Set operations record by record -/

variable {records : List Record} {verdict : Record × Nat → Bool}

/-- What a filter finds is told from the positions. -/
theorem mem_positions_iff {r : Record × Nat} (hr : r ∈ records.zipIdx) :
    r.2 ∈ (records.zipIdx.filter verdict).map Prod.snd ↔ verdict r := by
  constructor
  · intro h
    obtain ⟨r', hr', hpos⟩ := List.mem_map.mp h
    obtain ⟨hmem, hv⟩ := List.mem_filter.mp hr'
    -- two records at the same position are the same
    have hrec : r'.1 = r.1 := by
      have h' := List.mk_mem_zipIdx_iff_getElem?.mp hmem
      rw [hpos, List.mk_mem_zipIdx_iff_getElem?.mp hr] at h'
      exact (Option.some.inj h').symm
    rwa [show r' = r from Prod.ext hrec hpos] at hv
  · intro hv
    exact List.mem_map_of_mem (List.mem_filter.mpr ⟨hr, hv⟩)

/-- The scope is what the previous filter leaves open. -/
theorem scope_eq_filter {mode : Mode} {selected : List (Record × Nat)}
    (h : mode.needsPrevious → selected = records.zipIdx.filter verdict) :
    mode.scope records.zipIdx selected = records.zipIdx.filter fun r => mode.asks (verdict r) := by
  cases mode with
  | replace => simp [scope, asks]
  | and => exact h rfl
  | andNot => exact h rfl
  | or =>
    rw [h rfl]
    refine List.filter_congr fun r hr => ?_
    simp [mem_positions_iff hr, asks]

/-- The selection takes the records one by one. -/
theorem selection_eq_filter {mode : Mode} {selected : List (Record × Nat)}
    (h : mode.needsPrevious → selected = records.zipIdx.filter verdict)
    (holds : Record × Nat → Bool) :
    mode.selection holds records.zipIdx selected =
      records.zipIdx.filter fun r => mode.answer (verdict r) (holds r) := by
  cases mode with
  | replace => rfl
  | and =>
    rw [h rfl, selection, List.filter_filter]
    exact List.filter_congr fun r _ => Bool.and_comm _ _
  | andNot =>
    rw [h rfl, selection, List.filter_filter]
    exact List.filter_congr fun r _ => Bool.and_comm _ _
  | or =>
    rw [h rfl]
    refine List.filter_congr fun r hr => ?_
    simp [mem_positions_iff hr, answer]

/-- Where the query is not asked its answer plays no part. -/
theorem answer_eq_ite (mode : Mode) (previous fresh : Bool) :
    mode.answer previous fresh =
      if mode.asks previous then mode.answer previous fresh else previous := by
  cases mode <;> cases previous <;> rfl

end Mode

namespace Session

variable {s : Session} {layer query : String} {mode : Mode}

/-! ### Attempts on numbered records -/

namespace Attempt

/-- The filter before the attempt, if there is one, has the given answers and finds the given
records. -/
structure Follows (t : Attempt s layer query mode) (verdict : Record × Nat → Bool)
    (selected : List (Record × Nat)) : Prop where
  answers : ∀ p ∈ t.previous, ∀ r ∈ t.records.zipIdx, p.predicate.evaluate r.1 = .ok (verdict r)
  selected_eq : mode.needsPrevious → selected = t.records.zipIdx.filter verdict

/-- The evaluation of an attempt on numbered records. -/
theorem select_eq (t : Attempt s layer query mode) :
    select t.combined.evaluate t.records =
      (select (fun r => t.combined.evaluate r.1) t.records.zipIdx).map (List.map Prod.fst) := by
  conv_lhs => rw [← List.zipIdx_map_fst 0 t.records, select_map]

/-- The answer to a query that is attempted. -/
theorem apply_result (t : Attempt s layer query mode) :
    (s.apply layer query mode).result =
      (select (fun r => t.combined.evaluate r.1) t.records.zipIdx).map List.length := by
  rw [apply, t.tryApply_eq, t.select_eq]
  cases select (fun r : Record × Nat => t.combined.evaluate r.1) t.records.zipIdx with
  | error e => rfl
  | ok found => simp [Except.map]

/-- What is found after a query that is accepted. -/
theorem numberedMatches_apply (t : Attempt s layer query mode) {found : List (Record × Nat)}
    (h : select (fun r => t.combined.evaluate r.1) t.records.zipIdx = .ok found) :
    (s.apply layer query mode).session.numberedMatches = .ok found := by
  have hsession : (s.apply layer query mode).session = { s with active := some t.active } := by
    rw [apply, t.tryApply_eq, t.select_eq, h]
    rfl
  rw [hsession, numberedMatches_eq rfl t.layer_eq]
  exact h

namespace Follows

variable {t : Attempt s layer query mode} {verdict : Record × Nat → Bool}
  {selected : List (Record × Nat)}

/-- The new filter's answer on a record, told from those of the previous one and of the query. -/
theorem evaluate_eq (h : t.Follows verdict selected) :
    ∀ r ∈ t.records.zipIdx, t.combined.evaluate r.1 =
      if mode.asks (verdict r) then (t.fresh.evaluate r.1).map (mode.answer (verdict r))
      else .ok (verdict r) := by
  intro r hr
  refine Predicate.evaluate_combine t.combine_eq ?_
  intro p hp
  obtain ⟨previous, hmem, rfl⟩ := Option.map_eq_some_iff.mp hp
  exact h.answers previous hmem r hr

/-- **Accepted** are the queries that have an answer on every record of the scope. -/
theorem accepted_iff (h : t.Follows verdict selected) :
    (∃ n, (s.apply layer query mode).result = .ok n) ↔
      ∀ r ∈ mode.scope t.records.zipIdx selected, ∃ b, t.fresh.evaluate r.1 = .ok b := by
  rw [Mode.scope_eq_filter h.selected_eq, ← exists_select_guarded_iff h.evaluate_eq,
    t.apply_result]
  simp only [map_eq_ok_iff]
  constructor
  · rintro ⟨_, found, hfound, -⟩
    exact ⟨found, hfound⟩
  · rintro ⟨found, hfound⟩
    exact ⟨_, found, hfound, rfl⟩

/-- **After a query that is accepted** the selection is found. -/
theorem found_of_accepted (h : t.Follows verdict selected)
    {n : Nat} (hn : (s.apply layer query mode).result = .ok n) :
    ∃ found, (s.apply layer query mode).session.numberedMatches = .ok found ∧ n = found.length ∧
      found = mode.selection (passes fun r => t.fresh.evaluate r.1) t.records.zipIdx selected := by
  rw [t.apply_result] at hn
  obtain ⟨found, hfound, rfl⟩ := map_eq_ok_iff.mp hn
  refine ⟨found, t.numberedMatches_apply hfound, rfl, ?_⟩
  rw [Mode.selection_eq_filter h.selected_eq,
    filter_of_select_guarded h.evaluate_eq hfound]
  exact List.filter_congr fun r _ => (mode.answer_eq_ite _ _).symm

/-- **A query is refused** for the first record of the scope that it has no answer for. -/
theorem first_failure_of_refused (h : t.Follows verdict selected)
    {error : FilterError} (herror : (s.apply layer query mode).result = .error error) :
    ∃ before r after, mode.scope t.records.zipIdx selected = before ++ r :: after ∧
      (∀ x ∈ before, ∃ b, t.fresh.evaluate x.1 = .ok b) ∧
        t.fresh.evaluate r.1 = .error error := by
  rw [t.apply_result] at herror
  rw [Mode.scope_eq_filter h.selected_eq]
  exact first_failure_of_select_guarded h.evaluate_eq (map_eq_error_iff.mp herror)

end Follows

end Attempt

/-! ### Applying a query -/

/-- **A query that compiles is attempted**, and the filter before it has an answer on every
record. -/
theorem IsSound.exists_attempt (hs : s.IsSound) {records : List Record} {e : Expr} {f : Predicate}
    (hlayer : s.layers.get? layer = some records) (hquery : trimmed query ≠ "")
    (hparse : parse (trimmed query) = .ok e)
    (hcompile : compile (Schema.ofRecords records) e = .ok f)
    (hactive : mode.needsPrevious → ∃ a, s.active = some a ∧ a.layer = layer) :
    ∃ (t : Attempt s layer query mode) (verdict : Record × Nat → Bool)
      (selected : List (Record × Nat)), t.records = records ∧ t.fresh = f ∧
        s.numberedMatches = .ok selected ∧ t.Follows verdict selected := by
  by_cases hmode : mode.needsPrevious
  · obtain ⟨a, ha, rfl⟩ := hactive hmode
    obtain ⟨records', hrecords, hfits⟩ := hs a ha
    rw [hlayer] at hrecords
    cases hrecords
    obtain ⟨combined, hcombine⟩ :
        ∃ combined, Predicate.combine mode (some a.predicate) f = .ok combined := by
      cases mode <;> exact ⟨_, rfl⟩
    refine ⟨⟨records, some a, e, f, combined, hquery, hlayer, previousFor_of_active hmode ha rfl,
      hparse, hcompile, hcombine⟩, _, _, rfl, rfl, numberedMatches_of_fits ha hlayer hfits,
      ?_, fun _ => rfl⟩
    intro p hp r hr
    cases hp
    obtain ⟨b, hb⟩ := hfits.evaluates r.1 (List.fst_mem_of_mem_zipIdx hr)
    have hpass : passes (fun r : Record × Nat => a.predicate.evaluate r.1) r = b := passes_eq hb
    rw [hb, hpass]
  · have hreplace : mode = .replace := by simpa [Mode.needsPrevious] using hmode
    subst hreplace
    obtain ⟨selected, hselected⟩ := hs.exists_numberedMatches
    -- nothing is asked of a previous filter, so that any verdict will do
    refine ⟨⟨records, none, e, f, f, hquery, hlayer, previousFor_replace s layer, hparse, hcompile,
      rfl⟩, fun _ => false, selected, rfl, rfl, hselected, ?_, fun h => absurd h hmode⟩
    intro p hp
    cases hp

/-- **Applying a query is a set operation** on the records of its layer. The query is accepted when
it has an answer on every record of the scope; then the selection is found, and the answer is its
size. Otherwise the error is the type mismatch on the first record of the scope that the query has
no answer for. -/
theorem apply_selects {commands : List Command} {layer query : String} {mode : Mode}
    {records : List Record} {e : Expr} {f : Predicate}
    (hlayer : (empty.after commands).layers.get? layer = some records)
    (hquery : trimmed query ≠ "") (hparse : parse (trimmed query) = .ok e)
    (hcompile : compile (Schema.ofRecords records) e = .ok f)
    (hactive : mode.needsPrevious →
      ∃ a, (empty.after commands).active = some a ∧ a.layer = layer) :
    ∃ selected, (empty.after commands).numberedMatches = .ok selected ∧
      let outcome := (empty.after commands).apply layer query mode
      let scope := mode.scope records.zipIdx selected
      let selection :=
        mode.selection (passes fun r => f.evaluate r.1) records.zipIdx selected
      ((∃ n, outcome.result = .ok n) ↔ ∀ r ∈ scope, ∃ b, f.evaluate r.1 = .ok b) ∧
      (∀ n, outcome.result = .ok n →
        outcome.session.numberedMatches = .ok selection ∧
          outcome.session.matching = .ok (selection.map Prod.fst) ∧ n = selection.length) ∧
      ∀ error, outcome.result = .error error →
        ∃ before r after field detail, scope = before ++ r :: after ∧
          (∀ x ∈ before, ∃ b, f.evaluate x.1 = .ok b) ∧ f.evaluate r.1 = .error error ∧
            error = .typeMismatch field detail := by
  obtain ⟨t, verdict, selected, rfl, rfl, hselected, hfollows⟩ :=
    (isSound_after commands).exists_attempt hlayer hquery hparse hcompile hactive
  refine ⟨selected, hselected, hfollows.accepted_iff, ?_, ?_⟩
  · intro n hn
    obtain ⟨found, hnumbered, hsize, rfl⟩ := hfollows.found_of_accepted hn
    refine ⟨hnumbered, ?_, hsize⟩
    rw [matching, hnumbered]
    rfl
  · intro error herror
    obtain ⟨before, r, after, hscope, hbefore, hr⟩ :=
      hfollows.first_failure_of_refused herror
    obtain ⟨field, detail, htype⟩ := Predicate.exists_typeMismatch_of_evaluate hr
    exact ⟨before, r, after, field, detail, hscope, hbefore, hr, htype⟩

/-- A filter that finds one record of three is widened by another one. -/
theorem apply_selects_or :
    let records : List Record := [.ofAttributes [("zona", .text "sur")],
      .ofAttributes [("zona", .text "norte")], .ofAttributes []]
    let s := empty.after [.addLayer "pueblos" records, .apply "pueblos" "zona = sur" .replace]
    let f := Predicate.compare "zona" .eq ⟨"norte", none⟩
    ∃ selected, s.numberedMatches = .ok selected ∧
      (s.apply "pueblos" " zona = norte" .or).session.numberedMatches =
        .ok (Mode.or.selection (passes fun r => f.evaluate r.1) records.zipIdx selected) ∧
      2 = (Mode.or.selection (passes fun r => f.evaluate r.1) records.zipIdx selected).length := by
  intro records s f
  have hactive : s.active.map ActiveFilter.layer = some "pueblos" := by decide +kernel
  have hresult : (s.apply "pueblos" " zona = norte" .or).result = .ok 2 := by decide +kernel
  have hlayer : s.layers.get? "pueblos" = some records :=
    (congrArg (OrderedMap.get? · "pueblos") (layers_apply _ _ _ _)).trans
      (OrderedMap.get?_put_self _ _ _)
  have hparse : parse (trimmed " zona = norte") = .ok (.compare .eq "zona" "norte") := by
    decide +kernel
  have hcompile : compile (Schema.ofRecords records) (.compare .eq "zona" "norte") = .ok f := by
    decide +kernel
  obtain ⟨selected, hselected, -, haccepted, -⟩ := apply_selects hlayer (by decide +kernel) hparse
    hcompile fun _ => Option.map_eq_some_iff.mp hactive
  obtain ⟨hnumbered, -, hsize⟩ := haccepted 2 hresult
  exact ⟨selected, hselected, hnumbered, hsize⟩

end Session

end FeatureQuery
