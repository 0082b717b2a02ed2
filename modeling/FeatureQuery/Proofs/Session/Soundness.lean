import FeatureQuery.Proofs.Predicate.Evaluation
import FeatureQuery.Proofs.Predicate.Selection
import FeatureQuery.Proofs.Session.FilterText
import FeatureQuery.Proofs.Session.Steps

/-!
# The active filter

A session is **sound** if its active filter fits the records of its layer: the layer is there, the
text of the filter stands for its predicate, and the predicate has an answer on every record. No
step breaks this (`IsSound.perform`), so that it holds after every history (`isSound_after`).

Main statement: the text of the active filter is read again as its predicate, unless it is too deep
to be read (`parse_active_query`).
-/

namespace FeatureQuery

/-- A filter whose text stands for its predicate, and whose predicate has an answer on all records
of its layer. -/
structure ActiveFilter.Fits (a : ActiveFilter) (records : List Record) : Prop where
  expresses : Expresses (Schema.ofRecords records) a.query a.predicate
  evaluates : ∀ r ∈ records, ∃ b, a.predicate.evaluate r = .ok b

/-- A fitting filter mentions only names that some record has. -/
theorem ActiveFilter.Fits.contains {a : ActiveFilter} {records : List Record} (h : a.Fits records) :
    ∀ field ∈ a.predicate.fields, (Schema.ofRecords records).contains field := by
  obtain ⟨e, -, hc⟩ := h.expresses
  exact contains_of_compile hc

namespace Session

variable {s : Session} {layer query : String} {mode : Mode}

/-! ### Soundness -/

/-- The active filter fits the records of its layer. -/
def IsSound (s : Session) : Prop :=
  ∀ a, s.active = some a → ∃ records, s.layers.get? a.layer = some records ∧ a.Fits records

theorem isSound_empty : empty.IsSound := fun _ h => by cases h

/-- **What an attempt makes fits**, if it evaluates on the records of the layer. -/
theorem Attempt.fits (t : Attempt s layer query mode) (hs : s.IsSound) {matched : List Record}
    (h : select t.combined.evaluate t.records = .ok matched) : t.active.Fits t.records := by
  have hfresh : Expresses (Schema.ofRecords t.records) (trimmed query) t.fresh :=
    .of_parse t.parse_eq t.compile_eq
  refine ⟨?_, (select_eq_ok_iff.mp h).1⟩
  have hcombine := t.combine_eq
  simp only [Attempt.active, filterText]
  cases hp : t.previous with
  | none =>
    rw [hp] at hcombine
    rw [Predicate.eq_of_combine_none hcombine]
    exact hfresh
  | some p =>
    rw [hp] at hcombine
    obtain ⟨ha, hlayer⟩ := active_of_previousFor t.previous_eq (Option.mem_def.mpr hp)
    obtain ⟨records, hrecords, hfits⟩ := hs p ha
    rw [hlayer, t.layer_eq] at hrecords
    cases hrecords
    exact hfits.expresses.combine hfresh hcombine

/-- **A step keeps a session sound.** -/
theorem IsSound.perform (hs : s.IsSound) (command : Command) :
    (s.perform command).session.IsSound := by
  intro a ha
  cases s.effect_perform command with
  | dropped active_eq quiet =>
    rw [active_eq] at ha
    cases ha
  | kept active_eq layer_eq quiet =>
    rw [active_eq] at ha
    rw [layer_eq a ha]
    exact hs a ha
  | installed made session_eq result_eq =>
    obtain ⟨t, matched, hselect, hactive, -⟩ := exists_attempt made
    rw [session_eq] at ha ⊢
    cases ha
    rw [← hactive]
    exact ⟨t.records, t.layer_eq, t.fits hs hselect⟩

/-- **Every history leads to a sound session** if it begins with one. -/
theorem IsSound.after (hs : s.IsSound) (commands : List Command) : (s.after commands).IsSound := by
  induction commands generalizing s with
  | nil => exact hs
  | cons command commands ih => exact ih (hs.perform command)

theorem isSound_after (commands : List Command) : (empty.after commands).IsSound :=
  isSound_empty.after commands

/-! ### The text of the active filter -/

/-- **The text of the active filter** is read as a query that compiles to its predicate if the
predicate has at most 255 levels, and is refused as too deep, and for nothing else, if it has
more. -/
theorem parse_active_query {commands : List Command} {a : ActiveFilter}
    (ha : (empty.after commands).active = some a) :
    ∃ records, (empty.after commands).layers.get? a.layer = some records ∧
      (a.predicate.depth ≤ 255 →
        ∃ e, parse a.query = .ok e ∧ compile (Schema.ofRecords records) e = .ok a.predicate) ∧
      (255 < a.predicate.depth →
        parse a.query = .error (.malformed a.query .tooDeep) ∧
          Malformed.tooDeep.message = "query nests too deeply") := by
  obtain ⟨records, hrecords, hfits⟩ := isSound_after commands a ha
  exact ⟨records, hrecords, hfits.expresses.exists_parse,
    fun hdepth => ⟨hfits.expresses.parse_tooDeep hdepth, rfl⟩⟩

/-- Matches are taken away from a filter with a parenthesis in a literal, once and too often. -/
theorem parse_active_query_andNot :
    let first : List Command := [.addLayer "pueblos" [.ofAttributes [("zona", .text "sur")]],
      .apply "pueblos" "zona = 'sur (a or b'" .replace]
    let once := empty.after (first ++ [.apply "pueblos" " zona like N.* " .andNot])
    let often := empty.after (first ++ .replicate 256 (.apply "pueblos" " zona like N.* " .andNot))
    (∃ a e, once.active = some a ∧ parse a.query = .ok e ∧
      a.query = "(zona = 'sur (a or b') and not (zona like N.*)") ∧
    ∃ a, often.active = some a ∧ parse a.query = .error (.malformed a.query .tooDeep) := by
  intro first once often
  constructor
  · have hactive : once.active.map (fun a => (a.query, a.predicate.depth)) =
        some ("(zona = 'sur (a or b') and not (zona like N.*)", 2) := by decide +kernel
    obtain ⟨a, ha, heq⟩ := Option.map_eq_some_iff.mp hactive
    obtain ⟨hquery, hdepth⟩ := Prod.mk.inj heq
    obtain ⟨_, _, hshallow, _⟩ := parse_active_query ha
    obtain ⟨e, he, -⟩ := hshallow (by omega)
    exact ⟨a, e, ha, he, hquery⟩
  · have hactive : often.active.map (fun a => a.predicate.depth) = some 257 := by decide +kernel
    obtain ⟨a, ha, hdepth⟩ := Option.map_eq_some_iff.mp hactive
    obtain ⟨_, _, _, hdeep⟩ := parse_active_query ha
    exact ⟨a, ha, (hdeep (by omega)).1⟩

end Session

end FeatureQuery
