import FeatureQuery.Cli.Host
import FeatureQuery.Cli.Options
import FeatureQuery.Query.Wildcards
import FeatureQuery.Record.Load
import FeatureQuery.Session.Basic
import FeatureQuery.Text.Digits
import FeatureQuery.Text.Quoted

/-!
# A run of the command line

A run reads the settings and the records, applies the previous query and then the query to a session
with one layer, and prepares what is to be written. `Options.prepare` decides all of this from what
the host has; nothing is written before everything else has succeeded. `Host.run` carries a run out
on a host.
-/

namespace FeatureQuery.Cli

/-- Why a run fails. -/
inductive Failure where
  /-- The settings cannot be read. -/
  | settings (path : String)
  /-- The input cannot be read as text. -/
  | inputUnreadable (path : String)
  /-- The input holds no records. -/
  | inputRejected (path : String) (error : LoadError)
  /-- The previous query is refused. -/
  | previousRejected (error : FilterError)
  /-- The settings have no query of this name. -/
  | noSavedQuery (name : String)
  /-- The query is refused. -/
  | queryRejected (error : FilterError)
  /-- The records that pass the filter cannot be told. -/
  | selection (error : FilterError)
  /-- No record passes the filter. -/
  | nothingToExport
  /-- No format is known for the output. -/
  | unknownFormat
  /-- A collection of features cannot go to the standard output. -/
  | collectionToStdout
  /-- The output file cannot be created. -/
  | outputNotCreated
  /-- A row of a table is refused while it is written. -/
  | recordNotWritten (error : Csv.WidthError)
  deriving DecidableEq

/-- The failure in words, from the outside inwards. -/
def Failure.chain : Failure → List String
  | .settings path => ["Config: Failed to load " ++ Text.quoted path]
  | .inputUnreadable path =>
    ["CLI: Failed to read records from " ++ Text.quoted path,
      "Input: Failed to read " ++ Text.quoted path]
  | .inputRejected path error =>
    ["CLI: Failed to read records from " ++ Text.quoted path,
      "Input: Failed to load records from " ++ Text.quoted path, error.message]
  | .previousRejected error => ["CLI: Previous query rejected", error.message]
  | .noSavedQuery name => ["Config: No saved query named '" ++ name ++ "'"]
  | .queryRejected error => ["CLI: Query rejected", error.message]
  | .selection error => [error.message]
  | .nothingToExport => ["Export: no data to export"]
  | .unknownFormat => ["CLI: Could not detect output format from extension; use --format"]
  | .collectionToStdout =>
    ["CLI: GeoJSON output to stdout is not supported; use geojsonl instead"]
  | .outputNotCreated => []
  | .recordNotWritten error => ["Sink: Failed to write record", error.message]

/-- What a run reports while it works. -/
inductive Event where
  /-- The records were loaded. -/
  | loaded (count : Nat) (layer : String) (fields : List String)
  /-- The session reported. -/
  | session (event : SessionEvent)
  /-- The filter whose records are written. -/
  | active (layer query : String)
  /-- The output was chosen. -/
  | sink (format : OutputFormat) (output : String)

/-- The event as a line of the log. -/
def Event.line : Event → String
  | .loaded count layer fields =>
    "INFO Loaded " ++ Text.ofNat count ++ " records into layer '" ++ layer ++
      "' (fields: " ++ String.intercalate ", " fields ++ ")"
  | .session event => event.line
  | .active layer query => "INFO Active filter on '" ++ layer ++ "': " ++ query
  | .sink format output =>
    "INFO Sink: " ++ format.name ++ " -> " ++
      if Path.isStdout output then "stdout" else Text.quoted output

/-- What a run is to write. -/
structure Export where
  /-- How the records are written. -/
  format : OutputFormat
  /-- The records. -/
  records : List Record

/-- The text that is written. -/
def Export.text (e : Export) : String := e.format.write e.records

/-- A result with what was reported on the way to it. -/
structure Logged (α : Type) where
  /-- The result. -/
  result : Except Failure α
  /-- What was reported, in order. -/
  events : List Event

namespace Logged

/-- Goes on with a result. After a failure there is nothing to go on with. -/
def bind {α β : Type} (l : Logged α) (f : α → Logged β) : Logged β :=
  match l.result with
  | .ok a => ⟨(f a).result, l.events ++ (f a).events⟩
  | .error e => ⟨.error e, l.events⟩

instance : Monad Logged where
  pure a := ⟨.ok a, []⟩
  bind := Logged.bind

/-- A result without a report. -/
def of {α : Type} (result : Except Failure α) : Logged α := ⟨result, []⟩

/-- A report. -/
def tell (event : Event) : Logged Unit := ⟨.ok (), [event]⟩

end Logged

namespace Options

/-- The paths under which a run may look for files: the input, and the settings with the names that
stand in for theirs. -/
def paths (o : Options) (formats : Config.Formats) : List String :=
  o.input :: match o.config with
    | some path => path :: formats.otherNames path
    | none => []

/-- The settings of a run. -/
def readConfig (o : Options) (h : Host) : Except Failure Config :=
  match o.config with
  | none => .ok {}
  | some path =>
    match h.config? path with
    | some config => .ok config
    | none => .error (.settings path)

/-- The records of a run. -/
def readRecords (o : Options) (h : Host) : Except Failure (List Record) :=
  match (h.read? o.input).bind String.fromUTF8? with
  | none => .error (.inputUnreadable o.input)
  | some content => (Record.load content).mapError (.inputRejected o.input)

/-- The name of the layer: the one asked for, or the stem of the input's name. -/
def layerName (o : Options) : String :=
  match o.layer with
  | some layer => layer
  | none => (Path.stem? o.input).getD "layer"

/-- Whether queries are written with display wildcards. -/
def usesWildcards (o : Options) (config : Config) : Bool :=
  config.displayWildcards && !o.rawPatterns

/-- A query as the session takes it. -/
def toPattern (o : Options) (config : Config) (query : String) : String :=
  if o.usesWildcards config then Wildcards.toPattern query else query

/-- The query of a run, as the user wrote it. -/
def queryText (o : Options) (config : Config) : Except Failure String :=
  match o.source with
  | .text query => .ok query
  | .saved name =>
    match config.query? name with
    | some query => .ok query
    | none => .error (.noSavedQuery name)

/-- Applies a query to the layer of a session. -/
def applyQuery (s : Session) (layer query : String) (mode : Mode)
    (failure : FilterError → Failure) : Logged Session :=
  let outcome := s.apply layer query mode
  { result := match outcome.result with
      | .ok _ => .ok outcome.session
      | .error e => .error (failure e)
    events := outcome.events.map .session }

/-- Reports the active filter as it is shown. -/
def tellActive (o : Options) (config : Config) (s : Session) : Logged Unit :=
  match s.active with
  | some active =>
    Logged.tell <| .active active.layer <|
      if o.usesWildcards config then Wildcards.toDisplay active.query else active.query
  | none => pure ()

/-- The format of a run's output. A collection of features cannot go to the standard output. -/
def chooseFormat (o : Options) : Logged OutputFormat := do
  match OutputFormat.detect? o.format o.output with
  | none => Logged.of (.error .unknownFormat)
  | some format => do
    Logged.tell (.sink format o.output)
    if format = .geoJson ∧ Path.isStdout o.output then Logged.of (.error .collectionToStdout)
    else pure format

/-- Decides what a run writes, from what the host has. -/
def prepare (o : Options) (h : Host) : Logged Export := do
  let config ← Logged.of (o.readConfig h)
  let records ← Logged.of (o.readRecords h)
  let layer := o.layerName
  Logged.tell (.loaded records.length layer (Schema.ofRecords records).fields)
  let session := Session.empty.addLayer layer records
  let session ← match o.previous with
    | some previous =>
      applyQuery session layer (o.toPattern config previous) .replace .previousRejected
    | none => pure session
  -- a name that the settings lack is told only after the previous query was accepted
  let query ← Logged.of (o.queryText config)
  let mode := o.mode.getD config.defaultMode
  let session ← applyQuery session layer (o.toPattern config query) mode .queryRejected
  o.tellActive config session
  let matching ← Logged.of (session.matching.mapError .selection)
  if matching = [] then Logged.of (.error .nothingToExport)
  else do
    let format ← o.chooseFormat
    pure ⟨format, matching⟩

end Options

/-! ### Carrying runs out -/

/-- What a run leaves behind. -/
structure Report where
  /-- The number of records written, or why the run failed. -/
  result : Except Failure Nat
  /-- What was reported, in order. -/
  events : List Event
  /-- What was written to the standard output. -/
  stdout : String
  /-- What the files hold afterwards. -/
  files : OrderedMap ByteArray

/-- Carries out a run. -/
def Host.run (h : Host) (o : Options) : Report :=
  let prepared := o.prepare h
  match prepared.result with
  | .error e => ⟨.error e, prepared.events, "", h.files⟩
  | .ok e =>
    -- everything is decided here, and only now is something written
    if Path.isStdout o.output then ⟨.ok e.records.length, prepared.events, e.text, h.files⟩
    else
      match h.target? o.output with
      | some file =>
        ⟨.ok e.records.length, prepared.events, "", h.files.put file e.text.toUTF8⟩
      | none => ⟨.error .outputNotCreated, prepared.events, "", h.files⟩

/-- Carries out a run in a directory. -/
def Directory.run (d : Directory) (o : Options) : Report := d.host.run o

/-- The directory that a run leaves behind. -/
def Report.directory (r : Report) : Directory := ⟨r.files⟩

end FeatureQuery.Cli
