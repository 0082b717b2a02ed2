import FeatureQuery.Proofs.Outcome
import FeatureQuery.Session.History

/-!
# What a step can do

An `Attempt` is all that a query goes through before it is evaluated: its layer is there, it reads,
its fields are known, and it combines. Its evaluation alone then decides (`Attempt.tryApply_eq`),
and nothing else makes a filter (`exists_attempt`).

Every step drops the active filter, keeps it with the records of its layer, or installs one that
`tryApply` makes (`effect_perform`); only a step that installs a filter answers a number of matches.
What can be said of a filter after any history is said of these three cases once.
-/

namespace FeatureQuery

/-- The query without the blanks around it. -/
def trimmed (query : String) : String := String.ofList (Text.trim query.toList)

/-- The text of the filter that a query makes with the filter before it. -/
def filterText (mode : Mode) (previous : Option ActiveFilter) (body : String) : String :=
  match previous with
  | some previous => combinedQuery mode previous.query body
  | none => body

namespace Session

variable {s : Session} {layer query : String} {mode : Mode}

/-! ### The previous filter -/

/-- The filter that a new one combines with is the active one, and on the same layer. -/
theorem active_of_previousFor {previous : Option ActiveFilter}
    (h : s.previousFor layer mode = .ok previous) {p : ActiveFilter} (hp : p ∈ previous) :
    s.active = some p ∧ p.layer = layer := by
  rw [Option.mem_def] at hp
  subst hp
  rw [previousFor] at h
  split at h
  · cases ha : s.active with
    | none => simp [ha] at h
    | some active =>
      simp only [ha] at h
      split at h
      · cases h
        exact ⟨rfl, ‹_›⟩
      · simp at h
  · simp at h

theorem previousFor_replace (s : Session) (layer : String) :
    s.previousFor layer .replace = .ok none := rfl

theorem previousFor_of_active {active : ActiveFilter} (hmode : mode.needsPrevious)
    (ha : s.active = some active) (hlayer : active.layer = layer) :
    s.previousFor layer mode = .ok (some active) := by
  rw [previousFor, if_pos hmode, ha]
  exact if_pos hlayer

/-! ### Attempts -/

/-- A query that would make a filter on a layer, if it can be evaluated there. -/
structure Attempt (s : Session) (layer query : String) (mode : Mode) where
  /-- The records of the layer. -/
  records : List Record
  /-- The filter that the new one combines with. -/
  previous : Option ActiveFilter
  /-- The query as a tree. -/
  expr : Expr
  /-- The predicate of the query alone. -/
  fresh : Predicate
  /-- The predicate of the new filter. -/
  combined : Predicate
  query_ne : trimmed query ≠ ""
  layer_eq : s.layers.get? layer = some records
  previous_eq : s.previousFor layer mode = .ok previous
  parse_eq : parse (trimmed query) = .ok expr
  compile_eq : compile (Schema.ofRecords records) expr = .ok fresh
  combine_eq : Predicate.combine mode (previous.map ActiveFilter.predicate) fresh = .ok combined

namespace Attempt

/-- The filter that the attempt makes. -/
def active (t : Attempt s layer query mode) : ActiveFilter :=
  ⟨layer, filterText mode t.previous (trimmed query), t.combined⟩

/-- **An attempt is decided by its evaluation** on the records of the layer. -/
theorem tryApply_eq (t : Attempt s layer query mode) :
    s.tryApply layer query mode =
      (select t.combined.evaluate t.records).map fun matched => (t.active, matched.length) := by
  have hquery := t.query_ne
  have hparse := t.parse_eq
  rw [trimmed] at hquery hparse
  simp only [tryApply, if_neg hquery, t.layer_eq, t.previous_eq, hparse, t.compile_eq,
    t.combine_eq, ok_bind]
  cases select t.combined.evaluate t.records with
  | error e => rfl
  | ok matched => cases h : t.previous <;> simp [active, filterText, trimmed, h, Except.map]

end Attempt

/-- **Every filter comes of an attempt** that evaluates on all records of its layer. -/
theorem exists_attempt {a : ActiveFilter} {n : Nat} (h : s.tryApply layer query mode = .ok (a, n)) :
    ∃ (t : Attempt s layer query mode) (matched : List Record),
      select t.combined.evaluate t.records = .ok matched ∧ t.active = a ∧ matched.length = n := by
  have hquery : trimmed query ≠ "" := by
    intro he
    rw [trimmed] at he
    simp [tryApply, he] at h
  rw [trimmed] at hquery
  cases hlayer : s.layers.get? layer with
  | none => simp [tryApply, hlayer, hquery] at h
  | some records =>
    simp only [tryApply, if_neg hquery, hlayer] at h
    obtain ⟨previous, hprevious, h⟩ := bind_eq_ok_iff.mp h
    obtain ⟨expr, hparse, h⟩ := bind_eq_ok_iff.mp h
    obtain ⟨fresh, hcompile, h⟩ := bind_eq_ok_iff.mp h
    obtain ⟨combined, hcombine, h⟩ := bind_eq_ok_iff.mp h
    obtain ⟨matched, hselect, h⟩ := bind_eq_ok_iff.mp h
    refine ⟨⟨records, previous, expr, fresh, combined, hquery, hlayer, hprevious, hparse, hcompile,
      hcombine⟩, matched, hselect, ?_, ?_⟩ <;> cases previous <;> cases h <;> rfl

/-! ### The effect of a step -/

/-- Applying a query leaves the layers alone. -/
theorem layers_apply (s : Session) (layer query : String) (mode : Mode) :
    (s.apply layer query mode).session.layers = s.layers := by
  rw [apply]
  split <;> rfl

/-- What a step does to the active filter and to the records of its layer. -/
inductive Effect (s : Session) (o : Outcome (Except FilterError Answer)) : Prop where
  /-- No filter is active afterwards. -/
  | dropped (active_eq : o.session.active = none) (quiet : ∀ n, o.result ≠ .ok (.matched n))
  /-- The same filter is active, if any, and its layer has the same records. -/
  | kept (active_eq : o.session.active = s.active)
      (layer_eq : ∀ a, s.active = some a →
        o.session.layers.get? a.layer = s.layers.get? a.layer)
      (quiet : ∀ n, o.result ≠ .ok (.matched n))
  /-- A query made the filter that is active afterwards. -/
  | installed {layer query : String} {mode : Mode} {a : ActiveFilter} {n : Nat}
      (made : s.tryApply layer query mode = .ok (a, n))
      (session_eq : o.session = { s with active := some a })
      (result_eq : o.result = .ok (.matched n))

/-- A step that leaves the filter and the layers alone keeps the filter. -/
theorem Effect.kept_of_eq {o : Outcome (Except FilterError Answer)}
    (hactive : o.session.active = s.active) (hlayers : o.session.layers = s.layers)
    (hquiet : ∀ n, o.result ≠ .ok (.matched n)) : Effect s o :=
  .kept hactive (fun _ _ => by rw [hlayers]) hquiet

theorem effect_apply (s : Session) (layer query : String) (mode : Mode) :
    Effect s ((s.apply layer query mode).mapResult (·.map .matched)) := by
  cases h : s.tryApply layer query mode with
  | ok made =>
    obtain ⟨a, n⟩ := made
    refine .installed h ?_ ?_ <;> simp [Outcome.mapResult, apply, h, Except.map]
  | error e =>
    refine .kept_of_eq ?_ ?_ ?_ <;> simp [Outcome.mapResult, apply, h, Except.map]

theorem effect_addLayer (s : Session) (name : String) (records : List Record) :
    Effect s ⟨.ok .done, s.addLayer name records, []⟩ := by
  cases ha : s.active with
  | none => exact .dropped (by simp [addLayer, ha]) (by simp)
  | some a =>
    by_cases hname : a.layer = name
    · exact .dropped (by simp [addLayer, ha, hname]) (by simp)
    · refine .kept (by simp [addLayer, ha, hname]) ?_ (by simp)
      intro a' ha'
      rw [ha] at ha'
      cases ha'
      exact OrderedMap.get?_put_of_ne _ hname _

/-- **The effect of every step.** -/
theorem effect_perform (s : Session) (command : Command) : Effect s (s.perform command) := by
  cases command with
  | addLayer name records => exact s.effect_addLayer name records
  | apply layer query mode => exact s.effect_apply layer query mode
  | clear => exact .dropped rfl (by simp [perform, Outcome.mapResult])
  | saveCurrent =>
    cases ha : s.active <;>
      exact .kept_of_eq (by simp [perform, saveCurrent, Outcome.mapResult, ha])
        (by simp [perform, saveCurrent, Outcome.mapResult, ha])
        (by simp [perform, saveCurrent, Outcome.mapResult, ha, Except.map])
  | addSaved layer query => exact .kept_of_eq rfl rfl (by simp [perform, Outcome.mapResult])
  | applySaved index =>
    cases hs : s.saved[index]? with
    | none =>
      refine .kept_of_eq ?_ ?_ ?_ <;> simp [perform, applySaved, Outcome.mapResult, hs, Except.map]
    | some saved =>
      have happly := s.effect_apply saved.layer saved.query .replace
      simpa [perform, applySaved, hs] using happly
  | deleteSaved index =>
    cases hs : s.saved[index]? with
    | none =>
      refine .kept_of_eq ?_ ?_ ?_ <;> simp [perform, deleteSaved, Outcome.mapResult, hs, Except.map]
    | some saved =>
      exact .dropped (by simp [perform, deleteSaved, Outcome.mapResult, hs, clear])
        (by simp [perform, deleteSaved, Outcome.mapResult, hs, Except.map])

/-! ### Histories -/

theorem after_cons (s : Session) (command : Command) (commands : List Command) :
    s.after (command :: commands) = (s.perform command).session.after commands := rfl

theorem after_append (s : Session) (before after : List Command) :
    s.after (before ++ after) = (s.after before).after after :=
  List.foldl_append

/-- The answers to a list of steps, in order. -/
def answers (s : Session) : List Command → List (Except FilterError Answer)
  | [] => []
  | command :: commands =>
    (s.perform command).result :: (s.perform command).session.answers commands

theorem answers_append (s : Session) (before after : List Command) :
    s.answers (before ++ after) = s.answers before ++ (s.after before).answers after := by
  induction before generalizing s with
  | nil => rfl
  | cons command before ih =>
    rw [List.cons_append, answers, answers, ih, List.cons_append, after_cons]

end Session

end FeatureQuery
