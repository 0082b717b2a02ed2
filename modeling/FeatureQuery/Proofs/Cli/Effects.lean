import FeatureQuery.Cli.Effects
import FeatureQuery.Proofs.Entries
import Mathlib.Data.List.Basic

/-!
# A run is all or nothing

A run that acts as it goes on leaves behind what `Host.run` says (`execute_eq_run`), and one that
fails has neither changed a file nor written to the standard output (`execute_all_or_nothing`).
Whatever a run can be refused for comes before its output is opened. Once that is open nothing fails
any more: after its first record a sink is steady (`Sink.Steady`), which is to say that it takes any
record and is the same sink afterwards. For tables this is what the names of the first record are
for, since each row has one field for each of them.

What a sink does is said by `Writes`: an action writes a text to a place that is open, and does
nothing else.
-/

namespace FeatureQuery

/-! ### The texts of the formats -/

namespace Csv

theorem fieldStart_append_fieldEnd (text : List Char) :
    fieldStart text ++ fieldEnd text = field text := by
  unfold fieldStart fieldEnd field
  split <;> simp

theorem rowStart_append (texts : List (List Char)) :
    rowStart texts ++ (texts.getLast?.map fieldEnd).getD [] = fields texts := by
  fun_induction rowStart texts with
  | case1 => rfl
  | case2 text => exact fieldStart_append_fieldEnd text
  | case3 text next rest ih =>
    rw [List.getLast?_cons_cons, List.append_assoc, List.cons_append, ih, fields]

/-- **A row that is started and ended** is the row. -/
theorem rowStart_append_rowEnd (texts : List (List Char)) :
    rowStart texts ++ rowEnd texts = row texts := by
  unfold rowEnd row
  split
  · rename_i h
    obtain rfl | rfl := h <;> rfl
  · rw [← List.append_assoc, rowStart_append]

/-- The text of a row. -/
def rowText (texts : List String) : String := String.ofList (row (texts.map String.toList))

/-- The names of the first record come before its row, and the other rows come after it. -/
theorem write_cons (r : Record) (rest : List Record) :
    write (r :: rest) = rowText r.attributes.keys ++ rowText (texts r.attributes.keys r) ++
      String.join (rest.map fun r' => rowText (texts r.attributes.keys r')) := by
  apply String.toList_injective
  simp [write, table, header, rowText, List.flatMap_map]

end Csv

/-- Each feature after the first one follows a comma and a line feed. -/
theorem OutputFormat.featureLines_cons (r : Record) (rest : List Record) :
    featureLines (r :: rest) =
      r.featureText ++ String.join (rest.map fun r => ",\n" ++ r.featureText) := by
  induction rest generalizing r with
  | nil => exact String.append_empty.symm
  | cons next rest ih =>
    rw [featureLines, ih, List.map_cons, String.join_cons]
    simp only [String.append_assoc]

namespace Cli

/-! ### Places that are open -/

/-- The world in which an output was opened, and a text written to it. What its file held before is
gone. -/
def World.holding (w : World) (place : Place) (text : String) : World :=
  match place with
  | .stdout => { w with stdout := w.stdout ++ text }
  | .file name => { w with files := w.files.put name text.toUTF8 }

/-- An action writes a text to a place that is open, and does nothing else. -/
def Writes {α : Type} (place : Place) (action : Action α) (text : String) (a : α) : Prop :=
  ∀ (w : World) (before : String),
    action (w.holding place before) = .ok a (w.holding place (before ++ text))

namespace Writes

variable {α β σ : Type} {place : Place} {action : Action α} {next : α → Action β}
  {text more : String} {a : α} {b : β}

theorem write (place : Place) (text : String) : Writes place (place.write text) text () := by
  intro w before
  cases place with
  | stdout => simp [Place.write, World.holding, String.append_assoc]
  | file name => simp [Place.write, World.holding, OrderedMap.put_put]

theorem pure (place : Place) (a : α) : Writes place (Pure.pure a) "" a := by
  intro w before
  rw [String.append_empty]
  rfl

theorem bind (h : Writes place action text a) (hnext : Writes place (next a) more b) :
    Writes place (action >>= next) (text ++ more) b := by
  intro w before
  change EStateM.bind action next _ = _
  rw [EStateM.bind, h, ← String.append_assoc]
  exact hnext w _

/-- Giving a result at the end writes nothing more. -/
theorem bind_pure (h : Writes place action text a) (b : β) :
    Writes place (action >>= fun _ => Pure.pure b) text b := by
  have h : Writes place (action >>= fun _ => Pure.pure b) (text ++ "") b := h.bind (pure place b)
  rwa [String.append_empty] at h

theorem map (f : α → β) (h : Writes place action text a) :
    Writes place (f <$> action) text (f a) := by
  intro w before
  change EStateM.map f action _ = _
  rw [EStateM.map, h]

/-- A step that writes a line for each record and leaves its state as it is. -/
theorem foldlM {step : σ → Record → Action σ} {s : σ} {line : Record → String}
    (h : ∀ r, Writes place (step s r) (line r) s) (records : List Record) :
    Writes place (records.foldlM step s) (String.join (records.map line)) s := by
  induction records with
  | nil => exact pure place s
  | cons r rest ih =>
    rw [List.foldlM_cons, List.map_cons, String.join_cons]
    exact (h r).bind ih

end Writes

/-! ### Sinks -/

variable {place : Place}

/-- A row is written that is the first one, or as wide as the first one. -/
theorem TableSink.writes_row {s : TableSink} {texts : List String} {width : Nat}
    (hlength : texts.length = width) (h : s.width.getD texts.length = width) :
    Writes place (s.writeRow place texts) (Csv.rowText texts) { s with width := some width } := by
  rw [Csv.rowText, ← Csv.rowStart_append_rowEnd, String.ofList_append, writeRow, h]
  refine (Writes.write place _).bind ?_
  rw [if_pos hlength]
  exact (Writes.write place _).bind_pure _

namespace Sink

/-- A table that has names, with a field for each in every row, a collection that is not empty, or
a sink for lines. -/
inductive Steady : Sink → Prop
  | csv (names : List String) : Steady (.csv ⟨some names, some names.length⟩)
  | geoJson : Steady (.geoJson false)
  | geoJsonLines : Steady .geoJsonLines

/-- What a sink that is steady writes for a record. -/
def line : Sink → Record → String
  | .csv table, r => Csv.rowText (Csv.texts (table.names.getD []) r)
  | .geoJson _, r => ",\n" ++ r.featureText
  | .geoJsonLines, r => r.featureText ++ "\n"

/-- **A step of a steady sink** does not fail, and the sink is the same afterwards. -/
theorem Steady.writes_add {s : Sink} (h : s.Steady) (r : Record) :
    Writes place (s.add place r) (s.line r) s := by
  cases h with
  | csv names => exact (TableSink.writes_row (List.length_map _) rfl).map Sink.csv
  | geoJson => exact (Writes.write place _).bind ((Writes.write place _).bind_pure _)
  | geoJsonLines => exact (Writes.write place _).bind ((Writes.write place _).bind_pure _)

/-- **A run of a steady sink** does not fail either. -/
theorem Steady.writes_foldlM {s : Sink} (h : s.Steady) (records : List Record) :
    Writes place (records.foldlM (add place) s) (String.join (records.map s.line)) s :=
  Writes.foldlM h.writes_add records

/-- A sink before its first record. -/
def fresh : OutputFormat → Sink
  | .csv => .csv {}
  | .geoJson => .geoJson true
  | .geoJsonLines => .geoJsonLines

/-- A sink after its first record. -/
def after (format : OutputFormat) (r : Record) : Sink :=
  match format with
  | .csv => .csv ⟨some r.attributes.keys, some r.attributes.keys.length⟩
  | .geoJson => .geoJson false
  | .geoJsonLines => .geoJsonLines

/-- What comes before the records. -/
def opening : OutputFormat → String
  | .geoJson => "\x7b\n  \"type\": \"FeatureCollection\",\n  \"features\": [\n"
  | .csv | .geoJsonLines => ""

/-- What is written for the first record. -/
def first (format : OutputFormat) (r : Record) : String :=
  match format with
  | .csv => Csv.rowText r.attributes.keys ++ Csv.rowText (Csv.texts r.attributes.keys r)
  | .geoJson => r.featureText
  | .geoJsonLines => r.featureText ++ "\n"

/-- What comes after the records. -/
def closing : OutputFormat → String
  | .geoJson => "\n  ]\n\x7d\n"
  | .csv | .geoJsonLines => ""

theorem writes_start (place : Place) (format : OutputFormat) :
    Writes place (start place format) (opening format) (fresh format) := by
  cases format with
  | csv | geoJsonLines => exact Writes.pure place _
  | geoJson => exact (Writes.write place _).bind_pure _

/-- **The first record** makes a sink steady. -/
theorem writes_first (place : Place) (format : OutputFormat) (r : Record) :
    Writes place ((fresh format).add place r) (first format r) (after format r) ∧
      (after format r).Steady := by
  cases format with
  | csv =>
    have hnames : Writes place (TableSink.writeRow place {} r.attributes.keys)
        (Csv.rowText r.attributes.keys) ⟨none, some r.attributes.keys.length⟩ :=
      TableSink.writes_row rfl rfl
    exact ⟨(hnames.bind (TableSink.writes_row (List.length_map _) rfl)).map Sink.csv, .csv _⟩
  | geoJson => exact ⟨(Writes.write place _).bind_pure _, .geoJson⟩
  | geoJsonLines => exact ⟨Steady.geoJsonLines.writes_add r, .geoJsonLines⟩

theorem writes_finish (place : Place) (format : OutputFormat) :
    Writes place ((fresh format).finish place) (closing format) () ∧
      ∀ r, Writes place ((after format r).finish place) (closing format) () := by
  cases format with
  | csv | geoJsonLines => exact ⟨Writes.pure place _, fun _ => Writes.pure place _⟩
  | geoJson => exact ⟨Writes.write place _, fun _ => Writes.write place _⟩

theorem write_geoJson (records : List Record) :
    OutputFormat.geoJson.write records =
      opening .geoJson ++ OutputFormat.featureLines records ++ closing .geoJson :=
  rfl

theorem write_nil (format : OutputFormat) : format.write [] = opening format ++ closing format := by
  cases format with
  | csv | geoJsonLines => exact String.append_empty.symm
  | geoJson =>
    rw [write_geoJson, OutputFormat.featureLines, String.append_empty]

theorem write_cons (format : OutputFormat) (r : Record) (rest : List Record) :
    format.write (r :: rest) = opening format ++
      (first format r ++ (String.join (rest.map (after format r).line) ++ closing format)) := by
  cases format with
  | csv =>
    rw [opening, closing, String.empty_append, String.append_empty]
    exact Csv.write_cons r rest
  | geoJson =>
    rw [write_geoJson, OutputFormat.featureLines_cons, String.append_assoc, String.append_assoc]
    rfl
  | geoJsonLines =>
    rw [opening, closing, String.empty_append, String.append_empty]
    exact String.join_cons

/-- **Writing records** does not fail, and what is written is their text. -/
theorem writes_writeAll (place : Place) (format : OutputFormat) (records : List Record) :
    Writes place (writeAll place format records) (format.write records) () := by
  cases records with
  | nil =>
    rw [write_nil]
    exact (writes_start place format).bind (writes_finish place format).1
  | cons r rest =>
    rw [write_cons, writeAll]
    refine (writes_start place format).bind ?_
    obtain ⟨hfirst, hsteady⟩ := writes_first place format r
    rw [List.foldlM_cons, bind_assoc]
    exact hfirst.bind ((hsteady.writes_foldlM rest).bind ((writes_finish place format).2 r))

end Sink

/-! ### Runs -/

/-- A run goes on after a step that succeeds, and ends with one that fails. -/
theorem bind_apply {α β : Type} (action : Action α) (next : α → Action β) (w : World) :
    (action >>= next) w =
      match action w with
      | .ok a w => next a w
      | .error e w => .error e w := by
  change EStateM.bind action next w = _
  rw [EStateM.bind]
  cases action w <;> rfl

/-- What is left when the records were written to an output that was opened. -/
theorem writeAll_holding (w : World) (place : Place) (format : OutputFormat)
    (records : List Record) :
    Sink.writeAll place format records (w.holding place "") =
      .ok () (w.holding place (format.write records)) := by
  rw [Sink.writes_writeAll, String.empty_append]

/-- What opening an output does: a place is open and holds nothing, or there is no such place. -/
theorem create_eq (h : Host) (output : String) (w : World) :
    Place.create h output w =
      if Path.isStdout output then .ok .stdout (w.holding .stdout "")
      else
        match h.target? output with
        | some name => .ok (.file name) (w.holding (.file name) "")
        | none => .error .outputNotCreated w := by
  simp only [Place.create, World.holding, String.append_empty]
  rfl

/-- **A run that acts as it goes on** leaves behind what `Host.run` says. -/
theorem execute_eq_run (h : Host) (o : Options) : h.execute o = h.run o := by
  rw [Host.execute, Host.run, Options.execute]
  simp only [bind_apply, Action.reading]
  cases hprepared : (o.prepare h).result with
  | error e => rfl
  | ok e =>
    -- all refusals are behind it: from here on only the opening can fail
    simp only [create_eq]
    by_cases hstdout : Path.isStdout o.output = true
    · simp only [if_pos hstdout, writeAll_holding]
      change (⟨.ok e.records.length, _, "" ++ e.text, h.files⟩ : Report) = _
      rw [String.empty_append]
      rfl
    · simp only [if_neg hstdout]
      cases h.target? o.output with
      | none => rfl
      | some file =>
        simp only [writeAll_holding]
        rfl

/-- A run that fails leaves everything as it was. -/
theorem unchanged_of_run_error {h : Host} {o : Options} {f : Failure}
    (hrun : (h.run o).result = .error f) : (h.run o).files = h.files ∧ (h.run o).stdout = "" := by
  rw [Host.run] at hrun ⊢
  cases hprepared : (o.prepare h).result with
  | error e => exact ⟨rfl, rfl⟩
  | ok e =>
    simp only [hprepared] at hrun ⊢
    by_cases hstdout : Path.isStdout o.output = true
    · simp [hstdout] at hrun
    · simp only [if_neg hstdout] at hrun ⊢
      cases htarget : h.target? o.output with
      | none => exact ⟨rfl, rfl⟩
      | some file =>
        rw [htarget] at hrun
        cases hrun

/-- **A run is all or nothing**, on whatever host and with whatever options. Acting as it goes on,
with files that are emptied when they are opened and texts that stay where they were written, it
leaves behind what `Host.run` says. If it fails, for whatever reason, no file was created, emptied
or changed, and nothing was written to the standard output. Its output may lead to the input or the
settings, or to any other file there is. -/
theorem execute_all_or_nothing (h : Host) (o : Options) :
    h.execute o = h.run o ∧
      ∀ f, (h.execute o).result = .error f →
        (h.execute o).files = h.files ∧ (h.execute o).stdout = "" := by
  rw [execute_eq_run]
  exact ⟨rfl, fun f hrun => unchanged_of_run_error hrun⟩

/-- No record is found, and the output that was asked for is the input, by another path. -/
theorem execute_all_or_nothing_input :
    let collection := "\x7b\"type\":\"Feature\",\"geometry\":null,\"properties\":" ++
      "\x7b\"zona\":\"sur\"\x7d\x7d"
    let t : Tree :=
      { files := OrderedMap.ofList [("srv/fixture/pueblos.json", collection.toUTF8)]
        directories := { all := [[], ["srv"], ["srv", "fixture"]], working := ["srv"] } }
    let o : Options :=
      { input := "fixture/pueblos.json", source := .text "zona = 'norte'"
        output := "/srv/../srv/fixture/pueblos.json" }
    t.host.target? o.output = some "srv/fixture/pueblos.json" ∧
      (t.host.execute o).result = .error .nothingToExport ∧
      (t.host.execute o).files = t.host.files ∧ (t.host.execute o).stdout = "" := by
  intro collection t o
  have hresult : (t.host.execute o).result = .error .nothingToExport := by decide +kernel
  exact ⟨by decide +kernel, hresult, (execute_all_or_nothing t.host o).2 _ hresult⟩

end Cli

end FeatureQuery
