import FeatureQuery.Proofs.Session.Soundness
import Mathlib.Data.List.Induction

/-!
# The records that the active filter finds

The active filter was installed by some step of the history, and no step after that installed
another one; in between only the records of other layers may have changed (`active_of_quiet`).
Main statement: whatever the history, the active filter has an answer on every record of its layer,
and finds as many as the step answered that installed it (`matching_after`).
-/

namespace FeatureQuery

/-- Steps that apply a query. -/
def Command.Applies : Command → Prop
  | .apply .. => True
  | .applySaved _ => True
  | _ => False

namespace Session

/-- The filter was installed by a step of the history that answered the number, and by no later
one. -/
def Installed (commands : List Command) (a : ActiveFilter) (n : Nat) : Prop :=
  ∃ before command between, commands = before ++ command :: between ∧ command.Applies ∧
    ((empty.after before).perform command).result = .ok (.matched n) ∧
    ((empty.after before).perform command).session.active = some a ∧
    ∀ m, .ok (.matched m) ∉ ((empty.after before).perform command).session.answers between

variable {s : Session} {a : ActiveFilter}

/-! ### Selections from the layer -/

/-- The active filter's records are a selection from its layer. -/
theorem numberedMatches_eq {records : List Record} (ha : s.active = some a)
    (hlayer : s.layers.get? a.layer = some records) :
    s.numberedMatches = select (fun r => a.predicate.evaluate r.1) records.zipIdx := by
  simp only [numberedMatches, ha, hlayer]

theorem matching_eq {records : List Record} (ha : s.active = some a)
    (hlayer : s.layers.get? a.layer = some records) :
    s.matching = select a.predicate.evaluate records := by
  rw [matching, numberedMatches_eq ha hlayer]
  conv_rhs => rw [← List.zipIdx_map_fst 0 records, select_map]

/-- A filter that fits its records finds those that pass. -/
theorem numberedMatches_of_fits {records : List Record} (ha : s.active = some a)
    (hlayer : s.layers.get? a.layer = some records) (hfits : a.Fits records) :
    s.numberedMatches =
      .ok (records.zipIdx.filter (passes fun r : Record × Nat => a.predicate.evaluate r.1)) := by
  rw [numberedMatches_eq ha hlayer]
  exact select_eq_ok_iff.mpr
    ⟨fun r hr => hfits.evaluates r.1 (List.fst_mem_of_mem_zipIdx hr), rfl⟩

/-- What the active filter of a sound session finds can always be told. -/
theorem IsSound.exists_numberedMatches (hs : s.IsSound) :
    ∃ selected, s.numberedMatches = .ok selected := by
  cases ha : s.active with
  | none => exact ⟨[], by simp only [numberedMatches, ha]⟩
  | some a =>
    obtain ⟨records, hrecords, hfits⟩ := hs a ha
    exact ⟨_, numberedMatches_of_fits ha hrecords hfits⟩

/-! ### The step that installed the filter -/

/-- Only steps that apply a query answer a number of matches. -/
theorem applies_of_matched {command : Command} {n : Nat}
    (h : (s.perform command).result = .ok (.matched n)) : command.Applies := by
  cases command with
  | apply layer query mode => trivial
  | applySaved index => trivial
  | saveCurrent =>
    obtain ⟨_, _, h⟩ := map_eq_ok_iff.mp h
    cases h
  | deleteSaved index =>
    obtain ⟨_, _, h⟩ := map_eq_ok_iff.mp h
    cases h
  | _ => cases h

/-- **Steps that install no filter** leave the active one as it was, with the records of its layer,
if it is active still. -/
theorem active_of_quiet {commands : List Command} (ha : (s.after commands).active = some a)
    (hquiet : ∀ m, .ok (.matched m) ∉ s.answers commands) :
    s.active = some a ∧ (s.after commands).layers.get? a.layer = s.layers.get? a.layer := by
  induction commands generalizing s with
  | nil => exact ⟨ha, rfl⟩
  | cons command commands ih =>
    obtain ⟨hactive, hlayer⟩ := ih ha fun m hm => hquiet m (List.mem_cons_of_mem _ hm)
    cases s.effect_perform command with
    | dropped active_eq quiet =>
      rw [active_eq] at hactive
      cases hactive
    | kept active_eq layer_eq quiet =>
      rw [active_eq] at hactive
      exact ⟨hactive, hlayer.trans (layer_eq a hactive)⟩
    | @installed _ _ _ _ n made session_eq result_eq =>
      exact absurd (result_eq ▸ List.mem_cons_self) (hquiet n)

/-- **An active filter was installed** by some step of the history. -/
theorem exists_installed {commands : List Command} (ha : (empty.after commands).active = some a) :
    ∃ n, Installed commands a n := by
  induction commands using List.reverseRecOn with
  | nil => cases ha
  | append_singleton commands command ih =>
    rw [after_append] at ha
    cases (empty.after commands).effect_perform command with
    | dropped active_eq quiet => exact absurd (active_eq.symm.trans ha) (by simp)
    | kept active_eq layer_eq quiet =>
      obtain ⟨n, before, first, between, rfl, happlies, hresult, hactive, hquiet⟩ :=
        ih (active_eq.symm.trans ha)
      refine ⟨n, before, first, between ++ [command], by simp, happlies, hresult, hactive, ?_⟩
      intro m hm
      rw [answers_append, List.mem_append] at hm
      rw [after_append, after_cons] at quiet
      rcases hm with hm | hm
      · exact hquiet m hm
      · exact quiet m (List.mem_singleton.mp hm).symm
    | @installed _ _ _ _ n made session_eq result_eq =>
      have happlies := applies_of_matched result_eq
      exact ⟨n, commands, command, [], rfl, happlies, result_eq, ha, by simp [answers]⟩

/-- **A filter finds what was counted** when it was installed. -/
theorem Installed.matching {commands : List Command} {n : Nat} (h : Installed commands a n)
    (ha : (empty.after commands).active = some a) :
    ∃ found, (empty.after commands).matching = .ok found ∧ found.length = n := by
  obtain ⟨before, command, between, rfl, -, hresult, hactive, hquiet⟩ := h
  rw [after_append, after_cons] at ha ⊢
  obtain ⟨-, hlayer⟩ := active_of_quiet ha hquiet
  cases (empty.after before).effect_perform command with
  | dropped active_eq quiet => exact absurd hresult (quiet n)
  | kept active_eq layer_eq quiet => exact absurd hresult (quiet n)
  | installed made session_eq result_eq =>
    obtain ⟨t, matched, hselect, hmade, hlength⟩ := exists_attempt made
    rw [hresult] at result_eq
    cases result_eq
    have heq : t.active = a := by
      rw [session_eq] at hactive
      exact hmade.trans (Option.some.inj hactive)
    have hrecords : (((empty.after before).perform command).session.after between).layers.get?
        a.layer = some t.records := by
      rw [hlayer, session_eq, ← heq]
      exact t.layer_eq
    refine ⟨matched, ?_, hlength⟩
    rw [matching_eq ha hrecords, ← heq]
    exact hselect

/-- **The active filter of any history** is on a layer that is there, mentions only fields of that
layer, and has an answer on every record of it. So its records can be told, whether at once or in
parts, and there are as many as the step answered that installed it. -/
theorem matching_after (commands : List Command) :
    (∃ found, (empty.after commands).matching = .ok found) ∧
      ∀ a, (empty.after commands).active = some a →
        (∃ records, (empty.after commands).layers.get? a.layer = some records ∧
          (∀ field ∈ a.predicate.fields, (Schema.ofRecords records).contains field) ∧
          (∀ r ∈ records, ∃ b, a.predicate.evaluate r = .ok b) ∧
          ∀ parts : List (List Record), parts.flatten = records →
            ∃ found, parts.mapM (select a.predicate.evaluate) = .ok found ∧
              (empty.after commands).matching = .ok found.flatten) ∧
        (∃ n, Installed commands a n) ∧
        ∀ n, Installed commands a n →
          ∃ found, (empty.after commands).matching = .ok found ∧ found.length = n := by
  constructor
  · obtain ⟨selected, hselected⟩ := (isSound_after commands).exists_numberedMatches
    exact ⟨selected.map Prod.fst, by rw [matching, hselected]; rfl⟩
  · intro a ha
    obtain ⟨records, hrecords, hfits⟩ := isSound_after commands a ha
    refine ⟨⟨records, hrecords, hfits.contains, hfits.evaluates, ?_⟩, exists_installed ha,
      fun n hn => hn.matching ha⟩
    rintro parts rfl
    obtain ⟨out, hout⟩ := exists_select_eq_ok_iff.mpr hfits.evaluates
    obtain ⟨found, hfound, hflat⟩ := select_flatten_eq_ok_iff.mp hout
    exact ⟨found, hfound, by rw [matching_eq ha hrecords, hout, hflat]⟩

/-- A query that is refused and another layer come after the filter. -/
theorem matching_after_refused :
    let commands : List Command :=
      [.addLayer "pueblos" [.ofAttributes [("zona", .text "sur")], .ofAttributes []],
        .apply "pueblos" "zona = sur" .replace, .apply "pueblos" "zona =" .and, .saveCurrent,
        .addLayer "rios" []]
    ∃ a found, (empty.after commands).active = some a ∧ Installed commands a 1 ∧
      (empty.after commands).matching = .ok found ∧ found.length = 1 := by
  intro commands
  have hsome : (empty.after commands).active.isSome := by decide +kernel
  have hcount : (empty.after commands).matching.map List.length = .ok 1 := by decide +kernel
  obtain ⟨a, ha⟩ := Option.isSome_iff_exists.mp hsome
  obtain ⟨-, ⟨n, hn⟩, hlength⟩ := (matching_after commands).2 a ha
  obtain ⟨found, hfound, hfoundn⟩ := hlength n hn
  rw [hfound] at hcount
  have hone : found.length = 1 := Except.ok.inj hcount
  rw [← hfoundn, hone] at hn
  exact ⟨a, found, ha, hn, hfound, hone⟩

end Session

end FeatureQuery
