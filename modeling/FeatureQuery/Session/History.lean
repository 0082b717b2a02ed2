import FeatureQuery.Session.Basic

/-!
# Histories of sessions

The steps of a session as data: `Session.perform` performs one, and `Session.after` a list of them,
so that the sessions that can be reached are those after some list of steps. Main statement: a step
that fails leaves the session as it was (`perform_of_error`).
-/

namespace FeatureQuery

/-- A step of a session. -/
inductive Command where
  /-- Registers a layer. -/
  | addLayer (name : String) (records : List Record)
  /-- Applies a query to a layer. -/
  | apply (layer query : String) (mode : Mode)
  /-- Drops the active filter. -/
  | clear
  /-- Keeps the active filter's query. -/
  | saveCurrent
  /-- Keeps a query without applying it. -/
  | addSaved (layer query : String)
  /-- Applies a saved query. -/
  | applySaved (index : Nat)
  /-- Removes a saved query. -/
  | deleteSaved (index : Nat)

/-- The answer to a step of a session. -/
inductive Answer where
  /-- Nothing to tell. -/
  | done
  /-- The number of records that pass a new filter. -/
  | matched (count : Nat)
  /-- The index of a saved query. -/
  | saved (index : Nat)
  /-- The saved query that was removed. -/
  | removed (query : SavedQuery)
  deriving DecidableEq

namespace Outcome

/-- The outcome with another answer. -/
def mapResult {α β : Type} (f : α → β) (o : Outcome α) : Outcome β :=
  { result := f o.result, session := o.session, events := o.events }

end Outcome

namespace Session

/-- Performs one step. -/
def perform (s : Session) : Command → Outcome (Except FilterError Answer)
  | .addLayer name records => ⟨.ok .done, s.addLayer name records, []⟩
  | .apply layer query mode => (s.apply layer query mode).mapResult (·.map .matched)
  | .clear => s.clear.mapResult fun _ => .ok .done
  | .saveCurrent => s.saveCurrent.mapResult (·.map .saved)
  | .addSaved layer query => (s.addSaved layer query).mapResult fun index => .ok (.saved index)
  | .applySaved index => (s.applySaved index).mapResult (·.map .matched)
  | .deleteSaved index => (s.deleteSaved index).mapResult (·.map .removed)

/-- The session after a list of steps. -/
def after (s : Session) (commands : List Command) : Session :=
  commands.foldl (fun s command => (s.perform command).session) s

/-- **A step that fails changes nothing.** -/
theorem perform_of_error {s : Session} {command : Command} {e : FilterError}
    (h : (s.perform command).result = .error e) : (s.perform command).session = s := by
  cases command with
  | addLayer name records => simp [perform] at h
  | apply layer query mode =>
    simp only [perform, Outcome.mapResult] at h ⊢
    cases hr : (s.apply layer query mode).result with
    | ok n => simp [hr, Except.map] at h
    | error e => exact apply_of_error hr
  | clear => simp [perform, Outcome.mapResult] at h
  | saveCurrent =>
    simp only [perform, Outcome.mapResult, saveCurrent] at h ⊢
    split at h <;> simp_all [Except.map]
  | addSaved layer query => simp [perform, Outcome.mapResult] at h
  | applySaved index =>
    simp only [perform, Outcome.mapResult, applySaved] at h ⊢
    cases hs : s.saved[index]? with
    | none => rfl
    | some saved =>
      simp only [hs] at h ⊢
      cases hr : (s.apply saved.layer saved.query .replace).result with
      | ok n => simp [hr, Except.map] at h
      | error e => exact apply_of_error hr
  | deleteSaved index =>
    simp only [perform, Outcome.mapResult, deleteSaved] at h ⊢
    split at h <;> simp_all [Except.map]

end Session

end FeatureQuery
