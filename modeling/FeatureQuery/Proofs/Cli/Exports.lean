import FeatureQuery.Cli.Run
import FeatureQuery.Proofs.Session.Matching

/-!
# What a run writes

A run that succeeds has worked on `Inputs`: the settings, the records, and the predicates that its
queries make on the records. What it writes is told from them alone: the records on which the mode's
test of the two predicates says yes (`Mode.test`), in the order of the input and in the format of
the output, to the place that the options name and to no other (`run_exports`).

The steps of a run are opened one by one (`Logged.bind_result_eq_ok_iff`). A query that is applied
makes a predicate that combines with the one before (`combine_of_tryApply`), and evaluating the
combined predicate is the mode's test (`Predicate.evaluate_eq_test`).
-/

namespace FeatureQuery

/-! ### The test of a mode -/

/-- Asks the previous predicate about a record first, and the fresh one where that does not
decide. -/
def Mode.test (mode : Mode) (previous : Option Predicate) (fresh : Predicate) (r : Record) :
    Except FilterError Bool :=
  match mode, previous with
  | .replace, _ => fresh.evaluate r
  | .and, some previous => do
    if ← previous.evaluate r then fresh.evaluate r else .ok false
  | .andNot, some previous => do
    if ← previous.evaluate r then (fresh.evaluate r).map (!·) else .ok false
  | .or, some previous => do
    if ← previous.evaluate r then .ok true else fresh.evaluate r
  | mode, none => .error (.noPreviousFilter mode)

/-- A pair of operands is evaluated from left to right. -/
theorem Predicate.evaluate_pair (r : Record) (connective : Connective) (p q : Predicate) :
    evaluate r (.join connective [p, q]) =
      p.evaluate r >>= fun b => if b = connective.neutral then q.evaluate r else .ok b := by
  rw [evaluate, evaluateAll]
  simp only [evaluateAll_singleton]

/-- **Evaluating a combined predicate** is the test of its mode. -/
theorem Predicate.evaluate_eq_test {mode : Mode} {previous : Option Predicate}
    {fresh combined : Predicate} (h : combine mode previous fresh = .ok combined) (r : Record) :
    combined.evaluate r = mode.test previous fresh r := by
  cases mode with
  | replace =>
    cases h
    rfl
  | and =>
    obtain _ | previous := previous <;> cases h
    rw [evaluate_pair, Mode.test]
    congr 1
    funext b
    cases b <;> rfl
  | andNot =>
    obtain _ | previous := previous <;> cases h
    rw [evaluate_pair, Mode.test]
    congr 1
    funext b
    cases b <;> rfl
  | or =>
    obtain _ | previous := previous <;> cases h
    rw [evaluate_pair, Mode.test]
    congr 1
    funext b
    cases b <;> rfl

/-! ### Applying a query to a known layer -/

/-- The predicate that a query makes on records. -/
def predicateOf (records : List Record) (query : String) : Except FilterError Predicate := do
  let e ← parse (trimmed query)
  compile (Schema.ofRecords records) e

namespace Session

variable {s : Session} {layer query : String} {mode : Mode} {records : List Record}
  {a : ActiveFilter} {n : Nat}

/-- **The filter that a query makes** is its predicate combined with that of the active filter, and
it is on the same layer. -/
theorem combine_of_tryApply (hlayer : s.layers.get? layer = some records)
    (h : s.tryApply layer query mode = .ok (a, n)) :
    a.layer = layer ∧ ∃ fresh, predicateOf records query = .ok fresh ∧
      Predicate.combine mode (s.active.map ActiveFilter.predicate) fresh = .ok a.predicate ∧
      ∃ found, select a.predicate.evaluate records = .ok found := by
  obtain ⟨t, found, hfound, rfl, -⟩ := exists_attempt h
  obtain rfl : t.records = records := Option.some.inj (t.layer_eq.symm.trans hlayer)
  refine ⟨rfl, t.fresh, ?_, ?_, found, hfound⟩
  · rw [predicateOf, t.parse_eq, ok_bind, t.compile_eq]
  · have hcombine := t.combine_eq
    cases hp : t.previous with
    | none =>
      rw [hp] at hcombine
      cases mode with
      | replace => exact hcombine
      | _ => cases hcombine
    | some p =>
      rw [hp] at hcombine
      rw [(active_of_previousFor t.previous_eq hp).1]
      exact hcombine

end Session

namespace Cli

/-! ### The steps of a run -/

namespace Logged

variable {α β : Type}

/-- A run goes on only after a step that succeeds. -/
theorem bind_result_eq_ok_iff {l : Logged α} {f : α → Logged β} {b : β} :
    (l >>= f).result = .ok b ↔ ∃ a, l.result = .ok a ∧ (f a).result = .ok b := by
  change (Logged.bind l f).result = .ok b ↔ _
  rw [Logged.bind]
  cases l.result <;> simp

end Logged

/-- A query that is applied with success makes the filter that is active afterwards. -/
theorem applyQuery_result_eq_ok_iff {s s' : Session} {layer query : String} {mode : Mode}
    {failure : FilterError → Failure} :
    (Options.applyQuery s layer query mode failure).result = .ok s' ↔
      ∃ a n, s.tryApply layer query mode = .ok (a, n) ∧ s' = { s with active := some a } := by
  simp only [Options.applyQuery, Session.apply]
  cases s.tryApply layer query mode with
  | error e => simp
  | ok made =>
    obtain ⟨a, n⟩ := made
    simp [eq_comm]

/-! ### What a run works on -/

namespace Options

/-- A query as it is understood: with display wildcards if the settings have them and the options do
not ask for patterns as they are written. -/
def translated (o : Options) (config : Config) (text : String) : String :=
  if config.displayWildcards = true ∧ o.rawPatterns = false then Wildcards.toPattern text else text

/-- What the host and the options give a run to work on. -/
structure Inputs (o : Options) (h : Host) where
  /-- The settings. -/
  config : Config
  /-- The text of the input file. -/
  content : String
  /-- The records. -/
  records : List Record
  /-- The query, as the user wrote it. -/
  query : String
  /-- The predicate of the previous query, if there is one. -/
  previous : Option Predicate
  /-- The predicate of the query. -/
  fresh : Predicate
  config_eq : match o.config with
    | none => config = {}
    | some path => h.config? path = some config
  content_eq : (h.read? o.input).bind String.fromUTF8? = some content
  records_eq : Record.load content = .ok records
  query_eq : match o.source with
    | .text text => query = text
    | .saved name =>
      (config.queries.find? fun q => q.name = name).map NamedQuery.query = some query
  previous_eq : match o.previous with
    | none => previous = none
    | some text => ∃ p, previous = some p ∧ predicateOf records (o.translated config text) = .ok p
  fresh_eq : predicateOf records (o.translated config query) = .ok fresh

namespace Inputs

variable {o : Options} {h : Host}

/-- How the query combines with the previous one. -/
def mode (i : o.Inputs h) : Mode := o.mode.getD i.config.defaultMode

/-- The records on which the test says yes, in the order of the input. -/
def exported (i : o.Inputs h) : List Record :=
  i.records.filter (passes (i.mode.test i.previous i.fresh))

end Inputs

/-! ### The parts of a run -/

/-- The session with the records, after the previous query was applied if there is one. -/
def openSession (o : Options) (config : Config) (records : List Record) : Logged Session :=
  let session := Session.empty.addLayer o.layerName records
  match o.previous with
  | some previous =>
    applyQuery session o.layerName (o.toPattern config previous) .replace .previousRejected
  | none => pure session

/-- What is exported from a session, after the query was applied. -/
def closeSession (o : Options) (config : Config) (session : Session) : Logged Export := do
  let query ← Logged.of (o.queryText config)
  let mode := o.mode.getD config.defaultMode
  let session ← applyQuery session o.layerName (o.toPattern config query) mode .queryRejected
  o.tellActive config session
  let matching ← Logged.of (session.matching.mapError .selection)
  if matching = [] then Logged.of (.error .nothingToExport)
  else do
    let format ← o.chooseFormat
    pure ⟨format, matching⟩

theorem prepare_eq (o : Options) (h : Host) :
    o.prepare h = (do
      let config ← Logged.of (o.readConfig h)
      let records ← Logged.of (o.readRecords h)
      Logged.tell (.loaded records.length o.layerName (Schema.ofRecords records).fields)
      let session ← o.openSession config records
      o.closeSession config session) := by
  simp only [prepare, openSession]
  cases o.previous <;> rfl

theorem toPattern_eq (o : Options) (config : Config) (text : String) :
    o.toPattern config text = o.translated config text := by
  simp [toPattern, translated, usesWildcards]

variable {o : Options} {h : Host} {config : Config} {records : List Record}

theorem config_of_readConfig (hread : o.readConfig h = .ok config) :
    match o.config with
    | none => config = {}
    | some path => h.config? path = some config := by
  rw [readConfig] at hread
  cases hc : o.config with
  | none =>
    simp only [hc] at hread
    exact (Except.ok.inj hread).symm
  | some path =>
    simp only [hc] at hread
    cases hload : h.config? path with
    | none => simp [hload] at hread
    | some loaded =>
      simp only [hload] at hread
      exact hload.trans (congrArg some (Except.ok.inj hread))

theorem content_of_readRecords (hread : o.readRecords h = .ok records) :
    ∃ content, (h.read? o.input).bind String.fromUTF8? = some content ∧
      Record.load content = .ok records := by
  rw [readRecords] at hread
  split at hread
  · cases hread
  · exact ⟨_, ‹_›, mapError_eq_ok_iff.mp hread⟩

theorem query_of_queryText {query : String} (h : o.queryText config = .ok query) :
    match o.source with
    | .text text => query = text
    | .saved name =>
      (config.queries.find? fun q => q.name = name).map NamedQuery.query = some query := by
  rw [queryText] at h
  cases hs : o.source with
  | text text =>
    simp only [hs] at h
    exact (Except.ok.inj h).symm
  | saved name =>
    simp only [hs] at h
    cases hfound : config.query? name with
    | none => simp [hfound] at h
    | some found =>
      simp only [hfound] at h
      exact hfound.trans (congrArg some (Except.ok.inj h))

/-- **The session before the query**: its layer holds the records, and the predicate of the previous
query is active if there is one. -/
theorem session_of_openSession {session : Session}
    (h : (o.openSession config records).result = .ok session) :
    session.layers.get? o.layerName = some records ∧
      match o.previous with
      | none => session.active.map ActiveFilter.predicate = none
      | some text => ∃ p, session.active.map ActiveFilter.predicate = some p ∧
        predicateOf records (o.translated config text) = .ok p := by
  have hlayer : (Session.empty.addLayer o.layerName records).layers.get? o.layerName =
      some records := OrderedMap.get?_put_self _ _ _
  simp only [openSession] at h
  cases hprevious : o.previous with
  | none =>
    simp only [hprevious] at h
    cases h
    exact ⟨hlayer, rfl⟩
  | some text =>
    simp only [hprevious] at h
    obtain ⟨a, n, hmade, rfl⟩ := applyQuery_result_eq_ok_iff.mp h
    obtain ⟨-, p, hp, hcombine, -⟩ := Session.combine_of_tryApply hlayer hmade
    cases hcombine
    exact ⟨hlayer, _, rfl, toPattern_eq o config text ▸ hp⟩

/-- The format of an output, which is no collection on the standard output. -/
theorem format_of_chooseFormat {format : OutputFormat} (h : o.chooseFormat.result = .ok format) :
    OutputFormat.detect? o.format o.output = some format := by
  rw [chooseFormat] at h
  split at h
  · cases h
  · obtain ⟨-, -, h⟩ := Logged.bind_result_eq_ok_iff.mp h
    split at h
    · cases h
    · cases h
      assumption

/-- **What is exported from a session** whose layer holds the records. -/
theorem export_of_closeSession {session : Session} {e : Export}
    (hlayer : session.layers.get? o.layerName = some records)
    (h : (o.closeSession config session).result = .ok e) :
    ∃ query fresh combined, o.queryText config = .ok query ∧
      predicateOf records (o.translated config query) = .ok fresh ∧
      Predicate.combine (o.mode.getD config.defaultMode)
        (session.active.map ActiveFilter.predicate) fresh = .ok combined ∧
      select combined.evaluate records = .ok e.records ∧ e.records ≠ [] ∧
      OutputFormat.detect? o.format o.output = some e.format := by
  simp only [closeSession, Logged.bind_result_eq_ok_iff] at h
  obtain ⟨query, hquery, final, hfinal, -, -, matching, hmatching, h⟩ := h
  obtain ⟨a, n, hmade, rfl⟩ := applyQuery_result_eq_ok_iff.mp hfinal
  obtain ⟨ha, fresh, hfresh, hcombine, -⟩ := Session.combine_of_tryApply hlayer hmade
  have hmatching := mapError_eq_ok_iff.mp hmatching
  rw [Session.matching_eq rfl (ha ▸ hlayer)] at hmatching
  split at h
  · cases h
  · obtain ⟨format, hformat, h⟩ := Logged.bind_result_eq_ok_iff.mp h
    cases h
    exact ⟨query, fresh, a.predicate, hquery, toPattern_eq o config query ▸ hfresh, hcombine,
      hmatching, ‹_›, format_of_chooseFormat hformat⟩

/-- **What a run prepares** that succeeds. -/
theorem exists_inputs {e : Export} (hprepared : (o.prepare h).result = .ok e) :
    ∃ i : o.Inputs h, OutputFormat.detect? o.format o.output = some e.format ∧
      (∀ r ∈ i.records, ∃ b, i.mode.test i.previous i.fresh r = .ok b) ∧
      e.records ≠ [] ∧ e.records = i.exported := by
  rw [prepare_eq] at hprepared
  simp only [Logged.bind_result_eq_ok_iff] at hprepared
  obtain ⟨config, hconfig, records, hrecords, -, -, session, hsession, hclose⟩ := hprepared
  obtain ⟨content, hcontent, hload⟩ := content_of_readRecords hrecords
  obtain ⟨hlayer, hprevious⟩ := session_of_openSession hsession
  obtain ⟨query, fresh, combined, hquery, hfresh, hcombine, hselect, hne, hformat⟩ :=
    export_of_closeSession hlayer hclose
  let i : o.Inputs h :=
    { config, content, records, query, fresh
      previous := session.active.map ActiveFilter.predicate
      config_eq := config_of_readConfig hconfig
      content_eq := hcontent
      records_eq := hload
      query_eq := query_of_queryText hquery
      previous_eq := hprevious
      fresh_eq := hfresh }
  have htest : combined.evaluate = i.mode.test i.previous i.fresh :=
    funext fun r => Predicate.evaluate_eq_test hcombine r
  rw [htest] at hselect
  obtain ⟨hanswers, hfound⟩ := select_eq_ok_iff.mp hselect
  exact ⟨i, hformat, hanswers, hne, hfound.symm⟩

end Options

/-- **A run writes the records that pass**, in the order of the input, to one place. Its inputs are
what the options name, wherever their paths lead on the host: the records of the input file, the
query that is given or the first of its name in the settings, and the previous query if there is
one. The test of the mode has an answer on every record; those on which it says yes are counted,
there is one at least, and the text of the output's format for them is what the standard output
gets, or the file to which the output's path leads. No other file changes. -/
theorem run_exports {h : Host} {o : Options} {n : Nat} (hrun : (h.run o).result = .ok n) :
    ∃ (i : o.Inputs h) (format : OutputFormat),
      OutputFormat.detect? o.format o.output = some format ∧
      (∀ r ∈ i.records, ∃ b, i.mode.test i.previous i.fresh r = .ok b) ∧
      1 ≤ n ∧ n = i.exported.length ∧
      if Path.isStdout o.output then
        (h.run o).stdout = format.write i.exported ∧ (h.run o).files = h.files
      else
        (h.run o).stdout = "" ∧ ∃ file, h.target? o.output = some file ∧
          (h.run o).files.get? file = some (format.write i.exported).toUTF8 ∧
          ∀ other, other ≠ file → (h.run o).files.get? other = h.files.get? other := by
  simp only [Host.run] at hrun ⊢
  cases hprepared : (o.prepare h).result with
  | error e => simp [hprepared] at hrun
  | ok e =>
    obtain ⟨i, hformat, hanswers, hne, hexported⟩ := Options.exists_inputs hprepared
    have hpos : 1 ≤ e.records.length := List.length_pos_iff.mpr hne
    have htext : e.text = e.format.write i.exported := by rw [Export.text, hexported]
    simp only [hprepared] at hrun ⊢
    refine ⟨i, e.format, hformat, hanswers, ?_⟩
    split
    · rename_i hstdout
      simp only [if_pos hstdout] at hrun
      cases hrun
      exact ⟨hpos, by rw [hexported], htext, rfl⟩
    · rename_i hfile
      rw [if_neg hfile] at hrun
      cases htarget : h.target? o.output with
      | none =>
        rw [htarget] at hrun
        cases hrun
      | some file =>
        rw [htarget] at hrun
        cases hrun
        have hothers : ∀ other, other ≠ file →
            (h.files.put file e.text.toUTF8).get? other = h.files.get? other :=
          fun other hother => OrderedMap.get?_put_of_ne _ hother _
        exact ⟨hpos, by rw [hexported], rfl, file, rfl,
          htext ▸ OrderedMap.get?_put_self _ _ _, hothers⟩

/-- The settings say that a query of theirs widens the previous one, both with display wildcards.
The input lies beside the working directory, and the output is named from the root. -/
theorem run_exports_saved :
    let feature := fun zona => "\x7b\"type\":\"Feature\",\"geometry\":null," ++
      "\"properties\":\x7b\"zona\":\"" ++ zona ++ "\"\x7d\x7d"
    let collection := feature "sur" ++ "\n" ++ feature "norte"
    let settings := "default_mode: or\nqueries:\n- - n\n  - zona like n%"
    let t : Tree :=
      { files := OrderedMap.ofList
          [("srv/fixture/pueblos.geojson", collection.toUTF8),
            ("srv/jobs/s.yaml", settings.toUTF8)]
        directories :=
          { all := [[], ["srv"], ["srv", "fixture"], ["srv", "jobs"], ["tmp"]]
            working := ["srv", "jobs"] } }
    let o : Options :=
      { input := "../fixture/pueblos.geojson", source := .saved "n"
        previous := some "zona like _ur", output := "/tmp/found.csv", config := some "./s.yaml" }
    (t.host.run o).result = .ok 2 ∧ ∃ i : o.Inputs t.host, 2 = i.exported.length ∧
      (t.host.run o).files.get? "tmp/found.csv" =
        some (OutputFormat.csv.write i.exported).toUTF8 := by
  intro feature collection settings t o
  have hresult : (t.host.run o).result = .ok 2 := by decide +kernel
  obtain ⟨i, format, hformat, -, -, hcount, hplace⟩ := run_exports hresult
  obtain rfl : format = .csv := Option.some.inj (hformat.symm.trans (by decide))
  have htarget : t.host.target? o.output = some "tmp/found.csv" := by decide +kernel
  rw [if_neg (by decide)] at hplace
  obtain ⟨-, file, hfile, hcontent, -⟩ := hplace
  obtain rfl : file = "tmp/found.csv" := Option.some.inj (hfile.symm.trans htarget)
  exact ⟨hresult, i, hcount, hcontent⟩

end Cli

end FeatureQuery
