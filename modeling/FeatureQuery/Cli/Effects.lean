import FeatureQuery.Cli.Run

/-!
# A run, effect by effect

`Host.run` says what a run leaves behind. Here a run acts on the files and on the standard output
while it goes on: opening the output creates its file, or empties the one that is there, and what a
sink writes is in its place from then on. A failure ends the run and undoes nothing, so that a sink
that failed would leave what it had written.
-/

namespace FeatureQuery.Cli

/-- What a run acts on. -/
structure World where
  /-- What the files hold. -/
  files : OrderedMap ByteArray
  /-- What was written to the standard output. -/
  stdout : String
  /-- What was reported, in order. -/
  events : List Event

/-- A piece of a run. A failure keeps what was done before it. -/
abbrev Action := EStateM Failure World

/-- Decides something from what the files of a host hold now. -/
def Action.reading {α : Type} (h : Host) (decide : Host → Logged α) : Action α :=
  fun w =>
    let decided := decide { h with files := w.files }
    let w := { w with events := w.events ++ decided.events }
    match decided.result with
    | .ok a => .ok a w
    | .error e => .error e w

/-! ### Places -/

/-- Where the records go. -/
inductive Place where
  /-- The standard output. -/
  | stdout
  /-- The file of a name. -/
  | file (name : String)

namespace Place

/-- Opens an output. A file is created, or emptied if it is there. -/
def create (h : Host) (output : String) : Action Place := fun w =>
  if Path.isStdout output then .ok .stdout w
  else
    match h.target? output with
    | some name => .ok (.file name) { w with files := w.files.put name .empty }
    | none => .error .outputNotCreated w

/-- Writes a text at the end of what is in a place. -/
def write (place : Place) (text : String) : Action Unit := fun w =>
  match place with
  | .stdout => .ok () { w with stdout := w.stdout ++ text }
  | .file name =>
    let content := (w.files.get? name).getD .empty ++ text.toUTF8
    .ok () { w with files := w.files.put name content }

end Place

/-! ### Sinks -/

/-- A table on its way out. -/
structure TableSink where
  /-- The names that head it, once there was a record. -/
  names : Option (List String) := none
  /-- How many fields its first row has, once there was one. -/
  width : Option Nat := none

namespace TableSink

/-- Writes a row, which must be as wide as the first one. -/
def writeRow (place : Place) (s : TableSink) (texts : List String) : Action TableSink := do
  let width := s.width.getD texts.length
  place.write (String.ofList (Csv.rowStart (texts.map String.toList)))
  if texts.length = width then do
    place.write (String.ofList (Csv.rowEnd (texts.map String.toList)))
    pure { s with width := some width }
  else throw (.recordNotWritten ⟨width, texts.length⟩)

/-- Writes a record under the names of the first one, which come before it. -/
def add (place : Place) (s : TableSink) (r : Record) : Action TableSink := do
  match s.names with
  | some names => s.writeRow place (Csv.texts names r)
  | none => do
    let names := r.attributes.keys
    let s ← s.writeRow place names
    { s with names := some names }.writeRow place (Csv.texts names r)

end TableSink

/-- What takes the records one by one. -/
inductive Sink where
  /-- A table. -/
  | csv (table : TableSink)
  /-- A collection of features, and whether it is still empty. -/
  | geoJson (isEmpty : Bool)
  /-- A feature on each line. -/
  | geoJsonLines

namespace Sink

/-- What comes before the records. -/
def start (place : Place) : OutputFormat → Action Sink
  | .csv => pure (.csv {})
  | .geoJson => do
    place.write "\x7b\n  \"type\": \"FeatureCollection\",\n  \"features\": [\n"
    pure (.geoJson true)
  | .geoJsonLines => pure .geoJsonLines

/-- Writes a record. -/
def add (place : Place) (s : Sink) (r : Record) : Action Sink :=
  match s with
  | .csv table => .csv <$> table.add place r
  | .geoJson isEmpty => do
    unless isEmpty do
      place.write ",\n"
    place.write r.featureText
    pure (.geoJson false)
  | .geoJsonLines => do
    place.write r.featureText
    place.write "\n"
    pure .geoJsonLines

/-- What comes after the records. -/
def finish (place : Place) : Sink → Action Unit
  | .geoJson _ => place.write "\n  ]\n\x7d\n"
  | .csv _ | .geoJsonLines => pure ()

/-- Writes records from the first to the last. -/
def writeAll (place : Place) (format : OutputFormat) (records : List Record) : Action Unit := do
  let sink ← start place format
  let sink ← records.foldlM (add place) sink
  sink.finish place

end Sink

/-! ### Runs -/

/-- Carries out a run: decides what is to be written, and then opens the output and writes. -/
def Options.execute (o : Options) (h : Host) : Action Nat := do
  let e ← Action.reading h o.prepare
  let place ← Place.create h o.output
  Sink.writeAll place e.format e.records
  pure e.records.length

/-- What a run that acts as it goes on leaves behind. -/
def Host.execute (h : Host) (o : Options) : Report :=
  match o.execute h ⟨h.files, "", []⟩ with
  | .ok count w => ⟨.ok count, w.events, w.stdout, w.files⟩
  | .error e w => ⟨.error e, w.events, w.stdout, w.files⟩

end FeatureQuery.Cli
