import FeatureQuery.Proofs.Session.Matching

/-!
# Steps that fail

A step that fails changes nothing, and so a history without its failed steps runs as before: the
other steps answer the same, and the session afterwards is the same (`run_successful`).

The active filter is told from the history in the same way. A query that is applied with success
installs a filter (`Installs`); of the later steps only some drop it (`Command.Drops`), and all
others leave it as it is (`active_perform`). So after any steps in which nothing is installed the
filter is still there, unless it was dropped (`active_after_of_some`). Main statement:
`answers_without_failures`.
-/

namespace FeatureQuery

/-- Whether a step that answers in the given way drops a filter: it clears, it removes a saved
query, or it registers the filter's layer. -/
def Command.Drops (command : Command) (answer : Except FilterError Answer) (a : ActiveFilter) :
    Prop :=
  match command with
  | .clear => True
  | .deleteSaved _ => answer.isOk = true
  | .addLayer name _ => name = a.layer
  | _ => False

namespace Session

variable {s : Session} {command : Command} {commands : List Command} {a : ActiveFilter} {n : Nat}

/-! ### Histories without failed steps -/

/-- The steps of a list with their answers. -/
def steps (s : Session) : List Command → List (Command × Except FilterError Answer)
  | [] => []
  | command :: commands =>
    (command, (s.perform command).result) :: (s.perform command).session.steps commands

/-- The steps of a list that succeed. -/
def successful (s : Session) (commands : List Command) : List Command :=
  ((s.steps commands).filter fun step => step.2.isOk).map Prod.fst

theorem perform_of_not_isOk (h : ¬ (s.perform command).result.isOk = true) :
    (s.perform command).session = s := by
  cases hr : (s.perform command).result with
  | ok answer => simp [hr, Except.isOk, Except.toBool] at h
  | error e => exact perform_of_error hr

theorem successful_cons (s : Session) (command : Command) (commands : List Command) :
    s.successful (command :: commands) =
      if (s.perform command).result.isOk then
        command :: (s.perform command).session.successful commands
      else s.successful commands := by
  cases h : (s.perform command).result with
  | ok answer => simp [successful, steps, h, Except.isOk, Except.toBool]
  | error e => simp [successful, steps, h, perform_of_error h, Except.isOk, Except.toBool]

/-- **Without the failed steps** the others answer the same, and lead to the same session. -/
theorem run_successful (s : Session) (commands : List Command) :
    s.answers (s.successful commands) = (s.answers commands).filter Except.isOk ∧
      s.after (s.successful commands) = s.after commands := by
  induction commands generalizing s with
  | nil => exact ⟨rfl, rfl⟩
  | cons command commands ih =>
    rw [successful_cons, answers, List.filter_cons, after_cons]
    cases h : (s.perform command).result with
    | ok answer =>
      obtain ⟨hanswers, hafter⟩ := ih (s.perform command).session
      simp [answers, after_cons, h, hanswers, hafter, Except.isOk, Except.toBool]
    | error e =>
      rw [perform_of_error h]
      simpa [Except.isOk, Except.toBool] using ih s

/-! ### The filter that was installed last -/

/-- The query that a step applies, with its layer and mode. -/
inductive Requests (s : Session) : Command → String → String → Mode → Prop where
  /-- The query is given. -/
  | given {layer query : String} {mode : Mode} :
      Requests s (.apply layer query mode) layer query mode
  /-- The query was saved; it takes the place of the active filter. -/
  | kept {index : Nat} {layer query : String}
      (saved : s.saved[index]? = some ⟨layer, query⟩) :
      Requests s (.applySaved index) layer query .replace

/-- The step applies a query that makes the filter, and some number of records pass it. -/
def Installs (s : Session) (command : Command) (a : ActiveFilter) (n : Nat) : Prop :=
  ∃ layer query mode, s.Requests command layer query mode ∧
    s.tryApply layer query mode = .ok (a, n)

/-- A step that applies a query answers as the query does. -/
theorem Requests.perform_eq {layer query : String} {mode : Mode}
    (h : s.Requests command layer query mode) :
    s.perform command = (s.apply layer query mode).mapResult (·.map .matched) := by
  cases h with
  | given => rfl
  | kept saved => simp [perform, applySaved, saved]

/-- **What a step does that installs a filter**: the filter is active, and the number is answered.
-/
theorem Installs.perform (h : s.Installs command a n) :
    (s.perform command).session = { s with active := some a } ∧
      (s.perform command).result = .ok (.matched n) := by
  obtain ⟨layer, query, mode, hrequests, hmade⟩ := h
  rw [hrequests.perform_eq]
  simp [Outcome.mapResult, apply, hmade, Except.map]

/-- **Filters are installed by the queries that are applied with success**, and by no other step. -/
theorem exists_installs_iff :
    (∃ a n, s.Installs command a n) ↔
      command.Applies ∧ (s.perform command).result.isOk = true := by
  constructor
  · rintro ⟨a, n, h⟩
    refine ⟨?_, by rw [h.perform.2]; rfl⟩
    obtain ⟨layer, query, mode, hrequests, -⟩ := h
    cases hrequests <;> trivial
  · rintro ⟨happlies, hok⟩
    obtain ⟨layer, query, mode, hrequests⟩ :
        ∃ layer query mode, s.Requests command layer query mode := by
      cases command with
      | apply layer query mode => exact ⟨layer, query, mode, .given⟩
      | applySaved index =>
        cases hs : s.saved[index]? with
        | none =>
          simp [perform, applySaved, Outcome.mapResult, hs, Except.map, Except.isOk,
            Except.toBool] at hok
        | some saved => exact ⟨_, _, _, .kept hs⟩
      | _ => exact happlies.elim
    cases hmade : s.tryApply layer query mode with
    | ok made => exact ⟨made.1, made.2, layer, query, mode, hrequests, hmade⟩
    | error e =>
      simp [hrequests.perform_eq, Outcome.mapResult, apply, hmade, Except.map, Except.isOk,
        Except.toBool] at hok

/-- Some step of a list drops the filter. -/
def DropsIn (s : Session) (commands : List Command) (a : ActiveFilter) : Prop :=
  ∃ step ∈ s.steps commands, step.1.Drops step.2 a

/-- Some step of a list applies a query with success. -/
def InstallsIn (s : Session) (commands : List Command) : Prop :=
  ∃ step ∈ s.steps commands, step.1.Applies ∧ step.2.isOk = true

/-- **What a step does to the active filter** if it installs none: only the steps that are said to
drop it do so. -/
theorem active_perform (ha : s.active = some a)
    (hquiet : ¬ (command.Applies ∧ (s.perform command).result.isOk = true)) :
    (command.Drops (s.perform command).result a → (s.perform command).session.active = none) ∧
      (¬ command.Drops (s.perform command).result a →
        (s.perform command).session.active = some a) := by
  cases command with
  | addLayer name records =>
    by_cases hname : a.layer = name <;>
      simp [perform, addLayer, Command.Drops, ha, hname, Ne.symm]
  | apply layer query mode =>
    have hkept := perform_of_not_isOk (not_and.mp hquiet trivial)
    exact ⟨False.elim, fun _ => by rw [hkept, ha]⟩
  | clear => simp [perform, clear, Outcome.mapResult, Command.Drops]
  | saveCurrent => simp [perform, saveCurrent, Outcome.mapResult, Command.Drops, ha]
  | addSaved layer query => simp [perform, addSaved, Outcome.mapResult, Command.Drops, ha]
  | applySaved index =>
    have hkept := perform_of_not_isOk (not_and.mp hquiet trivial)
    exact ⟨False.elim, fun _ => by rw [hkept, ha]⟩
  | deleteSaved index =>
    cases hs : s.saved[index]? <;>
      simp [perform, deleteSaved, clear, Outcome.mapResult, Command.Drops, ha, hs, Except.map,
        Except.isOk, Except.toBool]

/-- A session without a filter has none until a step installs one. -/
theorem active_perform_of_none (ha : s.active = none)
    (hquiet : ¬ (command.Applies ∧ (s.perform command).result.isOk = true)) :
    (s.perform command).session.active = none := by
  cases s.effect_perform command with
  | dropped active_eq quiet => exact active_eq
  | kept active_eq layer_eq quiet => rw [active_eq, ha]
  | installed made session_eq result_eq =>
    exact absurd ⟨applies_of_matched result_eq, by rw [result_eq]; rfl⟩ hquiet

theorem not_installsIn_cons_iff :
    ¬ s.InstallsIn (command :: commands) ↔
      ¬ (command.Applies ∧ (s.perform command).result.isOk = true) ∧
        ¬ (s.perform command).session.InstallsIn commands := by
  simp [InstallsIn, steps]

theorem dropsIn_cons_iff :
    s.DropsIn (command :: commands) a ↔ command.Drops (s.perform command).result a ∨
      (s.perform command).session.DropsIn commands a := by
  simp [DropsIn, steps]

theorem active_after_of_none (ha : s.active = none) (hquiet : ¬ s.InstallsIn commands) :
    (s.after commands).active = none := by
  induction commands generalizing s with
  | nil => exact ha
  | cons command commands ih =>
    obtain ⟨hstep, hrest⟩ := not_installsIn_cons_iff.mp hquiet
    exact ih (active_perform_of_none ha hstep) hrest

/-- **Steps that install no filter** drop the active one or leave it as it is. -/
theorem active_after_of_some (ha : s.active = some a) (hquiet : ¬ s.InstallsIn commands) :
    (s.DropsIn commands a → (s.after commands).active = none) ∧
      (¬ s.DropsIn commands a → (s.after commands).active = some a) := by
  induction commands generalizing s with
  | nil =>
    refine ⟨fun hdrops => ?_, fun _ => ha⟩
    obtain ⟨step, hstep, -⟩ := hdrops
    cases hstep
  | cons command commands ih =>
    obtain ⟨hstep, hrest⟩ := not_installsIn_cons_iff.mp hquiet
    obtain ⟨hdrops, hkeeps⟩ := active_perform ha hstep
    rw [dropsIn_cons_iff, after_cons]
    by_cases hnow : command.Drops (s.perform command).result a
    · exact ⟨fun _ => active_after_of_none (hdrops hnow) hrest, fun h => absurd (.inl hnow) h⟩
    · simpa [hnow] using ih (hkeeps hnow) hrest

/-- A list of steps installs no filter, or there is a last step that does. -/
theorem exists_last_installs (h : s.InstallsIn commands) :
    ∃ before command between a n, commands = before ++ command :: between ∧
      (s.after before).Installs command a n ∧
        ¬ ((s.after before).perform command).session.InstallsIn between := by
  induction commands generalizing s with
  | nil =>
    obtain ⟨_, h, _⟩ := h
    simp [steps] at h
  | cons command commands ih =>
    by_cases hrest : (s.perform command).session.InstallsIn commands
    · obtain ⟨before, last, between, a, n, rfl, hlast⟩ := ih hrest
      exact ⟨command :: before, last, between, a, n, rfl, hlast⟩
    · have hstep : command.Applies ∧ (s.perform command).result.isOk = true := by
        by_contra hstep
        exact not_installsIn_cons_iff.mpr ⟨hstep, hrest⟩ h
      obtain ⟨a, n, hinstalls⟩ := exists_installs_iff.mpr hstep
      exact ⟨[], command, commands, a, n, rfl, hinstalls, hrest⟩

/-- **Failed steps leave no trace.** Without them the other steps answer the same, and lead to the
same session. The active filter is the one that was installed by the last query applied with
success, unless a later step clears, removes a saved query or registers the filter's layer; and if
no query was applied with success there is none. -/
theorem answers_without_failures (s : Session) (commands : List Command) :
    (s.answers (s.successful commands) = (s.answers commands).filter Except.isOk ∧
      s.after (s.successful commands) = s.after commands) ∧
    (¬ empty.InstallsIn commands ∧ (empty.after commands).active = none ∨
      ∃ before command between a n, commands = before ++ command :: between ∧
        (empty.after before).Installs command a n ∧
        let installed := ((empty.after before).perform command).session
        ¬ installed.InstallsIn between ∧
          (installed.DropsIn between a → (empty.after commands).active = none) ∧
          (¬ installed.DropsIn between a → (empty.after commands).active = some a)) := by
  refine ⟨s.run_successful commands, ?_⟩
  by_cases h : empty.InstallsIn commands
  · obtain ⟨before, command, between, a, n, rfl, hinstalls, hlast⟩ := exists_last_installs h
    have hactive : ((empty.after before).perform command).session.active = some a := by
      rw [hinstalls.perform.1]
    rw [after_append, after_cons]
    exact .inr ⟨before, command, between, a, n, rfl, hinstalls, hlast,
      active_after_of_some hactive hlast⟩
  · exact .inl ⟨h, active_after_of_none rfl h⟩

end Session

end FeatureQuery
