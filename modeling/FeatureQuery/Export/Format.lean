import FeatureQuery.Path
import FeatureQuery.Export.Csv

/-!
# Output formats

Records are written as a table with commas, as one collection of features with a feature on each
line, or as a feature on each line without more. The format that is asked for is taken, and
otherwise the one that the extension of the output's name stands for; the standard output takes
tables.
-/

namespace FeatureQuery

/-- How records are written. -/
inductive OutputFormat where
  /-- A table with commas. -/
  | csv
  /-- One collection of features. -/
  | geoJson
  /-- A feature on each line. -/
  | geoJsonLines
  deriving DecidableEq

namespace OutputFormat

/-- All formats. -/
def all : List OutputFormat := [.csv, .geoJson, .geoJsonLines]

/-- The name of a format. -/
def name : OutputFormat → String
  | .csv => "csv"
  | .geoJson => "geojson"
  | .geoJsonLines => "geojsonl"

/-- The format of a name. -/
def ofName? (name : String) : Option OutputFormat := all.find? fun format => format.name = name

/-- The format that an extension stands for, in letters of either case. -/
def ofExtension? (extension : String) : Option OutputFormat :=
  let extension := String.ofList (extension.toList.map Char.toLower)
  if extension = "csv" then some .csv
  else if extension = "geojson" ∨ extension = "json" then some .geoJson
  else if extension = "geojsonl" ∨ extension = "jsonl" then some .geoJsonLines
  else none

/-- The format of an output: the one asked for, a table on the standard output, or the one of the
extension. -/
def detect? (asked : Option OutputFormat) (output : String) : Option OutputFormat :=
  match asked with
  | some format => some format
  | none => if Path.isStdout output then some .csv else (Path.extension? output).bind ofExtension?

/-- Features with a comma and a line feed between them. -/
def featureLines : List Record → String
  | [] => ""
  | [r] => r.featureText
  | r :: next :: rest => r.featureText ++ ",\n" ++ featureLines (next :: rest)

/-- The records as text. -/
def write (format : OutputFormat) (records : List Record) : String :=
  match format with
  | .csv => Csv.write records
  | .geoJson =>
    "\x7b\n  \"type\": \"FeatureCollection\",\n  \"features\": [\n" ++ featureLines records ++
      "\n  ]\n\x7d\n"
  | .geoJsonLines => String.join (records.map fun r => r.featureText ++ "\n")

end OutputFormat

end FeatureQuery
