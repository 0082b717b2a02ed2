import FeatureQuery.Proofs.Session.Matching

/-!
# Bringing a saved filter back

A saved query is the text of the filter that was active. The steps in between keep it unless one
removes a query (`saved_after`), and they keep the records of its layer unless one registers the
layer again (`layer_after`). What the text stands for does not depend on the session, and so it is
applied again as it would have been at once: it finds the same records, unless it is too deep to be
read (`applySaved_of_saved`).
-/

namespace FeatureQuery

/-- The blanks around a text do not matter for what it stands for. -/
theorem Expresses.trimmed {schema : Schema} {text : String} {p : Predicate}
    (h : Expresses schema text p) : Expresses schema (trimmed text) p := by
  obtain ⟨e, ⟨hbalanced, hreads⟩, hcompile⟩ := h
  refine ⟨e, ⟨?_, ?_⟩, hcompile⟩ <;> rw [FeatureQuery.trimmed, String.toList_ofList]
  · exact Balanced.trimEnd_iff.mpr (Balanced.trimStart_iff.mpr hbalanced)
  · rwa [stripWrapping_congr (Text.trim_trim text.toList)]

/-- A text that stands for a predicate is not empty. -/
theorem Expresses.ne_empty {schema : Schema} {text : String} {p : Predicate}
    (h : Expresses schema text p) : text ≠ "" := by
  rintro rfl
  obtain ⟨e, hdenotes, -⟩ := h
  exact hdenotes.ne_nil rfl

namespace Session

variable {s : Session}

/-! ### The steps in between -/

/-- A step keeps the records of a layer that it does not register. -/
theorem layer_perform {command : Command} {name : String}
    (h : ∀ records, command ≠ .addLayer name records) :
    (s.perform command).session.layers.get? name = s.layers.get? name := by
  cases command with
  | addLayer other records =>
    have hname : name ≠ other := by
      rintro rfl
      exact h records rfl
    exact OrderedMap.get?_put_of_ne _ hname _
  | apply layer query mode => exact congrArg (·.get? name) (s.layers_apply layer query mode)
  | clear => rfl
  | saveCurrent => cases ha : s.active <;> simp [perform, saveCurrent, Outcome.mapResult, ha]
  | addSaved layer query => rfl
  | applySaved index =>
    cases hs : s.saved[index]? with
    | none => simp [perform, applySaved, Outcome.mapResult, hs]
    | some saved => simp [perform, applySaved, Outcome.mapResult, hs, layers_apply]
  | deleteSaved index =>
    cases hs : s.saved[index]? <;> simp [perform, deleteSaved, Outcome.mapResult, hs, clear]

theorem layer_after {commands : List Command} {name : String}
    (h : ∀ records, .addLayer name records ∉ commands) :
    (s.after commands).layers.get? name = s.layers.get? name := by
  induction commands generalizing s with
  | nil => rfl
  | cons command commands ih =>
    rw [after_cons, ih fun records hr => h records (List.mem_cons_of_mem _ hr)]
    refine layer_perform fun records hc => h records ?_
    rw [hc]
    exact List.mem_cons_self

/-- Applying a query leaves the saved queries alone. -/
theorem saved_apply (s : Session) (layer query : String) (mode : Mode) :
    (s.apply layer query mode).session.saved = s.saved := by
  rw [apply]
  split <;> rfl

/-- **How a step changes the saved queries**: it removes one and says so, or keeps them in their
places. -/
theorem saved_perform (s : Session) (command : Command) :
    (∃ query, (s.perform command).result = .ok (.removed query)) ∨
      s.saved <+: (s.perform command).session.saved := by
  cases command with
  | addLayer name records => exact .inr List.prefix_rfl
  | apply layer query mode =>
    right
    simp [perform, Outcome.mapResult, saved_apply]
  | clear => exact .inr List.prefix_rfl
  | saveCurrent =>
    right
    cases ha : s.active <;> simp [perform, saveCurrent, Outcome.mapResult, ha]
  | addSaved layer query => exact .inr (List.prefix_append _ _)
  | applySaved index =>
    right
    cases hs : s.saved[index]? with
    | none => simp [perform, applySaved, Outcome.mapResult, hs]
    | some saved => simp [perform, applySaved, Outcome.mapResult, hs, saved_apply]
  | deleteSaved index =>
    cases hs : s.saved[index]? with
    | none => exact .inr (by simp [perform, deleteSaved, Outcome.mapResult, hs])
    | some saved =>
      exact .inl ⟨saved, by simp [perform, deleteSaved, Outcome.mapResult, hs, Except.map]⟩

theorem saved_after {commands : List Command}
    (h : ∀ query, .ok (.removed query) ∉ s.answers commands) :
    s.saved <+: (s.after commands).saved := by
  induction commands generalizing s with
  | nil => exact List.prefix_rfl
  | cons command commands ih =>
    have hrest := ih fun query hq => h query (List.mem_cons_of_mem _ hq)
    rcases s.saved_perform command with ⟨query, hresult⟩ | hprefix
    · exact absurd (hresult ▸ List.mem_cons_self) (h query)
    · exact hprefix.trans hrest

/-! ### Saving and applying -/

/-- **What saving does**: the text of the active filter is kept at the index that is answered. -/
theorem saveCurrent_of_active {a : ActiveFilter} (ha : s.active = some a) {i : Nat}
    (h : (s.perform .saveCurrent).result = .ok (.saved i)) :
    (s.perform .saveCurrent).session.saved[i]? = some ⟨a.layer, a.query⟩ ∧
      (s.perform .saveCurrent).session.layers = s.layers := by
  simp only [perform, saveCurrent, Outcome.mapResult, ha, Except.map] at h ⊢
  cases h
  simp

/-- What a saved query finds, when it stands for a predicate that has an answer on all records of
its layer. -/
theorem applySaved_of_fits {i : Nat} {a : ActiveFilter} {records : List Record}
    (hsaved : s.saved[i]? = some ⟨a.layer, a.query⟩)
    (hlayer : s.layers.get? a.layer = some records) (hfits : a.Fits records)
    (hdepth : a.predicate.depth ≤ 255) :
    ∃ found, select a.predicate.evaluate records = .ok found ∧
      (s.perform (.applySaved i)).result = .ok (.matched found.length) ∧
      (s.perform (.applySaved i)).session.matching = .ok found := by
  obtain ⟨found, hfound⟩ := exists_select_eq_ok_iff.mpr hfits.evaluates
  obtain ⟨e, hparse, hcompile⟩ := hfits.expresses.trimmed.exists_parse hdepth
  let attempt : Attempt s a.layer a.query .replace :=
    { records, previous := none, expr := e, fresh := a.predicate, combined := a.predicate
      query_ne := hfits.expresses.trimmed.ne_empty
      layer_eq := hlayer
      previous_eq := s.previousFor_replace a.layer
      parse_eq := hparse
      compile_eq := hcompile
      combine_eq := rfl }
  have happly : s.tryApply a.layer a.query .replace = .ok (attempt.active, found.length) := by
    rw [attempt.tryApply_eq, hfound]
    rfl
  have hperform : s.perform (.applySaved i) =
      (s.apply a.layer a.query .replace).mapResult (·.map .matched) := by
    simp only [perform, applySaved, hsaved]
  refine ⟨found, hfound, ?_, ?_⟩
  · simp [hperform, Outcome.mapResult, apply, happly, Except.map]
  · rw [← hfound]
    refine matching_eq (a := attempt.active) ?_ ?_
    · simp [hperform, Outcome.mapResult, apply, happly]
    · simp only [hperform, Outcome.mapResult, layers_apply]
      exact hlayer

/-- A saved query that is too deep to be read is refused for that, and changes nothing. -/
theorem applySaved_of_deep {i : Nat} {a : ActiveFilter} {records : List Record}
    (hsaved : s.saved[i]? = some ⟨a.layer, a.query⟩)
    (hlayer : s.layers.get? a.layer = some records) (hfits : a.Fits records)
    (hdepth : 255 < a.predicate.depth) :
    (s.perform (.applySaved i)).result =
        .error (.malformed (trimmed a.query) .tooDeep) ∧
      (s.perform (.applySaved i)).session = s := by
  have hexpresses := hfits.expresses.trimmed
  have hquery := hexpresses.ne_empty
  have hparse := hexpresses.parse_tooDeep hdepth
  rw [trimmed] at hquery hparse
  have happly : s.tryApply a.layer a.query .replace =
      .error (.malformed (trimmed a.query) .tooDeep) := by
    simp only [tryApply, if_neg hquery, hlayer, previousFor_replace, hparse, ok_bind]
    rfl
  have hresult : (s.perform (.applySaved i)).result =
      .error (.malformed (trimmed a.query) .tooDeep) := by
    simp [perform, applySaved, hsaved, Outcome.mapResult, apply, happly, Except.map]
  exact ⟨hresult, perform_of_error hresult⟩

/-- **A saved filter is brought back**, whatever happens in between but that its layer is registered
again or a saved query is removed, and it finds the records that it found when it was saved. Only a
filter that has come to more than 255 levels is not: its text is refused as too deep. -/
theorem applySaved_of_saved {before between : List Command} {a : ActiveFilter} {i : Nat}
    (ha : (empty.after before).active = some a)
    (hi : ((empty.after before).perform .saveCurrent).result = .ok (.saved i))
    (hlayer : ∀ records, .addLayer a.layer records ∉ between)
    (hsaved : ∀ query, .ok (.removed query) ∉
      ((empty.after before).perform .saveCurrent).session.answers between) :
    let later := ((empty.after before).perform .saveCurrent).session.after between
    ∃ found, (empty.after before).matching = .ok found ∧
      (a.predicate.depth ≤ 255 →
        (later.perform (.applySaved i)).result = .ok (.matched found.length) ∧
          (later.perform (.applySaved i)).session.matching = .ok found) ∧
      (255 < a.predicate.depth →
        (later.perform (.applySaved i)).result =
            .error (.malformed (trimmed a.query) .tooDeep) ∧
          (later.perform (.applySaved i)).session = later) := by
  intro later
  obtain ⟨records, hrecords, hfits⟩ := isSound_after before a ha
  obtain ⟨hquery, hlayers⟩ := saveCurrent_of_active ha hi
  have hlater : later.saved[i]? = some ⟨a.layer, a.query⟩ := by
    obtain ⟨hlt, -⟩ := List.getElem?_eq_some_iff.mp hquery
    obtain ⟨rest, hrest⟩ := saved_after hsaved
    rw [← hrest, List.getElem?_append_left hlt, hquery]
  have hlaterLayer : later.layers.get? a.layer = some records := by
    rw [layer_after hlayer, hlayers, hrecords]
  obtain ⟨found, hfound⟩ := exists_select_eq_ok_iff.mpr hfits.evaluates
  refine ⟨found, by rw [matching_eq ha hrecords, hfound], fun hdepth => ?_,
    fun hdepth => applySaved_of_deep hlater hlaterLayer hfits hdepth⟩
  obtain ⟨again, hagain, hresult⟩ := applySaved_of_fits hlater hlaterLayer hfits hdepth
  obtain rfl : again = found := Except.ok.inj (hagain.symm.trans hfound)
  exact hresult

/-- Another layer, a refused query, a removal that fails and a dropped filter come in between. -/
theorem applySaved_of_saved_refused :
    let before : List Command :=
      [.addLayer "pueblos" [.ofAttributes [("zona", .text "sur")], .ofAttributes []],
        .apply "pueblos" "zona <> norte" .replace, .apply "pueblos" " zona like s.* " .and]
    let between : List Command :=
      [.addLayer "rios" [], .addSaved "rios" "x = 1", .applySaved 1, .deleteSaved 2, .clear]
    let later := ((empty.after before).perform .saveCurrent).session.after between
    ∃ found, (empty.after before).matching = .ok found ∧ found.length = 1 ∧
      (later.perform (.applySaved 0)).result = .ok (.matched 1) ∧
      (later.perform (.applySaved 0)).session.matching = .ok found := by
  intro before between later
  have hactive : (empty.after before).active.map (fun a => (a.layer, a.predicate.depth)) =
      some ("pueblos", 1) := by decide +kernel
  obtain ⟨a, ha, heq⟩ := Option.map_eq_some_iff.mp hactive
  obtain ⟨hlayer, hdepth⟩ := Prod.mk.inj heq
  have hi : ((empty.after before).perform .saveCurrent).result = .ok (.saved 0) := by
    decide +kernel
  have hquiet : (((empty.after before).perform .saveCurrent).session.answers between).all
      (fun | .ok (.removed _) => false | _ => true) = true := by decide +kernel
  have hsaved : ∀ query, .ok (.removed query) ∉
      ((empty.after before).perform .saveCurrent).session.answers between :=
    fun query hq => Bool.false_ne_true (List.all_eq_true.mp hquiet _ hq)
  obtain ⟨found, hfound, hshallow, -⟩ :=
    applySaved_of_saved ha hi (by simp [between, hlayer]) hsaved
  have hcount : (empty.after before).matching.map List.length = .ok 1 := by decide +kernel
  rw [hfound] at hcount
  have hone : found.length = 1 := Except.ok.inj hcount
  have hagain := hshallow (by omega)
  rw [hone] at hagain
  exact ⟨found, hfound, hone, hagain⟩

/-- A filter that has come to 256 levels is active, and finds its record; its saved query is refused
at once. -/
theorem applySaved_too_deep :
    let before : List Command :=
      [.addLayer "pueblos" [.ofAttributes [("zona", .text "sur")]],
        .apply "pueblos" "zona = sur" .replace] ++
      .replicate 256 (.apply "pueblos" "zona = sur" .and)
    let saved := (empty.after before).perform .saveCurrent
    ∃ a, (empty.after before).active = some a ∧
      (empty.after before).matching.map List.length = .ok 1 ∧
      saved.result = .ok (.saved 0) ∧
      (saved.session.perform (.applySaved 0)).result =
        .error (.malformed (trimmed a.query) .tooDeep) := by
  intro before saved
  have hactive : (empty.after before).active.map (fun a => a.predicate.depth) = some 256 := by
    decide +kernel
  obtain ⟨a, ha, hdepth⟩ := Option.map_eq_some_iff.mp hactive
  have hi : saved.result = .ok (.saved 0) := by decide +kernel
  obtain ⟨hquery, hlayers⟩ := saveCurrent_of_active ha hi
  obtain ⟨records, hrecords, hfits⟩ := isSound_after before a ha
  have hdeep := applySaved_of_deep hquery (by rw [hlayers, hrecords]) hfits (by omega)
  exact ⟨a, ha, by decide +kernel, hi, hdeep.1⟩

end Session

end FeatureQuery
