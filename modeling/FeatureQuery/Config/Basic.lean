import FeatureQuery.Path
import FeatureQuery.Config.KeyPath
import FeatureQuery.Config.Yaml.Reader
import FeatureQuery.Json.Reader
import FeatureQuery.Number.Format
import FeatureQuery.Predicate.Mode
import FeatureQuery.Text.Digits
import FeatureQuery.Text.Utf8

/-!
# Settings

Settings give the mode that is used when none is asked for, whether queries are written with display
wildcards, and named queries. They are read in a format that the extension of the file's name tells,
and their keys are paths. Scalars are converted where that is clear: a truth value may be given as a
number or a word, and a text as a number or a truth value. Keys that are not known do not count, but
a known key that is null is an error.

Which formats there are is left open: `Formats` says what a file of each extension holds, and
`yamlAndJson` are the two that are read here. Of YAML these are block mappings and sequences, plain
and quoted scalars, comments and lists in brackets; what goes beyond that is refused.
-/

namespace FeatureQuery

/-- A query with a name. -/
structure NamedQuery where
  /-- The name. -/
  name : String
  /-- The text of the query. -/
  query : String
  deriving DecidableEq

/-- The settings. -/
structure Config where
  /-- The mode that is used when none is asked for. -/
  defaultMode : Mode := .replace
  /-- Whether queries are written with display wildcards. -/
  displayWildcards : Bool := true
  /-- The named queries, in order. -/
  queries : List NamedQuery := []
  deriving DecidableEq

namespace Config

/-- The text of the first query with a name. -/
def query? (c : Config) (name : String) : Option String :=
  (c.queries.find? fun q => q.name = name).map NamedQuery.query

/-! ### Conversion of scalars -/

/-- A truth value, a number that is zero or not, or a word for a truth value. -/
def boolOf? : Json → Option Bool
  | .bool b => some b
  | .number (.whole n) => some (n != 0)
  | .number (.double d) => some (!d.equals (Double.ofInt 0))
  | .string s =>
    let word := String.ofList (s.toList.map Char.toLower)
    if ["1", "true", "on", "yes"].contains word then some true
    else if ["0", "false", "off", "no"].contains word then some false
    else none
  | _ => none

/-- A text, a number, or a truth value. -/
def textOf? : Json → Option String
  | .string s => some s
  | .bool b => some (if b then "true" else "false")
  | .number (.whole n) => some (Text.ofInt n)
  | .number (.double d) => some d.plainText
  | _ => none

/-- A mode by its name; a mapping stands for the mode that its only key names. -/
def modeOf? : Json → Option Mode
  | .string s => Mode.ofName? s
  | .object [(name, _)] => Mode.ofName? name
  | _ => none

/-- A named query: a mapping with the two keys, or a list of the name and the query. -/
def namedQueryOf? : Json → Option NamedQuery
  | .object members => do
    let name ← (Entries.get? "name" members).bind textOf?
    let query ← (Entries.get? "query" members).bind textOf?
    some { name, query }
  | .array (name :: query :: _) => do
    let name ← textOf? name
    let query ← textOf? query
    some { name, query }
  | _ => none

/-- The value under a key: the default if the key is absent, and otherwise what it is converted
to. -/
def setting? {α : Type} (members : List (String × Json)) (key : String) (default : α)
    (convert? : Json → Option α) : Option α :=
  match Entries.get? key members with
  | none => some default
  | some v => convert? v

/-- The settings that a mapping holds. -/
def ofMembers? (members : List (String × Json)) : Option Config := do
  let defaultMode ← setting? members "default_mode" .replace modeOf?
  let displayWildcards ← setting? members "display_wildcards" true boolOf?
  let queries ← setting? members "queries" [] fun v =>
    v.items?.bind fun items => items.mapM namedQueryOf?
  some { defaultMode, displayWildcards, queries }

/-! ### Files -/

/-- The formats in which settings may be kept. -/
structure Formats where
  /-- The extensions of files that may hold settings, in the order in which they are looked for. -/
  extensions : List String
  /-- The mapping that a text holds in a file with the given extension. -/
  mapping? : (extension content : String) → Option (List (String × Json))

/-- YAML and JSON. Files in other formats are found but cannot be read. -/
def yamlAndJson : Formats where
  extensions := ["toml", "json", "yaml", "yml", "ini", "ron", "json5"]
  mapping? extension content :=
    if extension = "yaml" ∨ extension = "yml" then Yaml.read? content
    else if extension = "json" then (Json.read? content).bind Json.members?
    else none

namespace Formats

/-- The names under which a file is looked for when there is none of the given name. -/
def otherNames (f : Formats) (name : String) : List String :=
  match Path.untilName? name with
  | some name => f.extensions.map fun extension => name ++ "." ++ extension
  | none => []

/-- Reads the settings from the file of the given name, or else from the first that exists of the
same name with an extension added. -/
def load? (f : Formats) (isFile : String → Bool) (read? : String → Option ByteArray)
    (name : String) : Option Config := do
  -- the first name under which there is a file decides, whatever the file holds
  let name ← (name :: f.otherNames name).find? isFile
  let bytes ← read? name
  let extension ← Path.extension? name
  let members ← f.mapping? extension (Text.decodeLossy bytes)
  ofMembers? (Json.expandKeys members)

end Formats

/-- Reads the settings from a file in YAML or JSON, where all files that exist are read. -/
def load? (read? : String → Option ByteArray) (name : String) : Option Config :=
  yamlAndJson.load? (fun name => (read? name).isSome) read? name

end Config

end FeatureQuery
