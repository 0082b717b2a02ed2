import FeatureQuery.GeoJson.Geometry
import FeatureQuery.Json.Reader

/-!
# Features and documents

A feature has properties, and it may have a geometry and an id. A GeoJSON document is a collection
of features, a feature, or a geometry. Where a feature is read its geometry must be given, if only
as null, while its properties may be missing; its bounding box is checked and not kept, and neither
are members beyond those that the format names.
-/

namespace FeatureQuery

/-- What identifies a feature. -/
inductive FeatureId where
  /-- A number. -/
  | number (n : JsonNumber)
  /-- A text. -/
  | text (s : String)
  deriving DecidableEq

/-- A feature. -/
structure Feature where
  /-- What identifies the feature. -/
  id : Option FeatureId
  /-- Where the feature is. -/
  geometry : Option Geometry
  /-- The properties, in order. -/
  properties : List (String × Json)

/-- A GeoJSON text. -/
inductive Document where
  /-- A collection of features. -/
  | collection (features : List Feature)
  /-- One feature. -/
  | feature (feature : Feature)
  /-- A geometry alone. -/
  | geometry (geometry : Geometry)

/-! ### Reading -/

namespace Feature

/-- The id among the members of a feature: it may be absent, but not null. -/
def readId? (members : List (String × Json)) : Option (Option FeatureId) :=
  match Entries.get? "id" members with
  | none => some none
  | some (.number n) => some (some (.number n))
  | some (.string s) => some (some (.text s))
  | some _ => none

/-- The geometry among the members of a feature: it may be null, but not absent. -/
def readGeometry? (members : List (String × Json)) : Option (Option Geometry) :=
  match Entries.get? "geometry" members with
  | none => none
  | some .null => some none
  | some v => (Geometry.read? v).map some

/-- The properties among the members of a feature; absent or null, there are none. -/
def readProperties? (members : List (String × Json)) : Option (List (String × Json)) :=
  match Entries.get? "properties" members with
  | none | some .null => some []
  | some v => v.members?

/-- The feature with the given members. -/
def ofMembers? (members : List (String × Json)) : Option Feature := do
  let geometry ← readGeometry? members
  let properties ← readProperties? members
  let id ← readId? members
  let _ ← readBbox? members
  some { id, geometry, properties }

/-- The feature that an object denotes. -/
def read? (v : Json) : Option Feature := do
  let members ← v.members?
  if (Entries.get? "type" members).bind Json.string? = some "Feature" then ofMembers? members
  else none

end Feature

/-- The document that an object denotes, by its type. -/
def Document.ofJson? (v : Json) : Option Document := do
  let members ← v.members?
  let kind ← (Entries.get? "type" members).bind Json.string?
  if kind = "FeatureCollection" then do
    let features ← (Entries.get? "features" members).bind (Json.listOf? Feature.read?)
    let _ ← readBbox? members
    some (.collection features)
  else if kind = "Feature" then (Feature.ofMembers? members).map .feature
  else (Geometry.read? v).map .geometry

/-- The document that a text denotes. -/
def Document.read? (s : String) : Option Document := (Json.read? s).bind Document.ofJson?

/-! ### Writing -/

/-- An id as a JSON value. -/
def FeatureId.toJson : FeatureId → Json
  | .number n => .number n
  | .text s => .string s

/-- The object that denotes a feature. Its geometry is always given, and its id comes last. -/
def Feature.toJson (f : Feature) : Json :=
  .object <|
    [("type", .string "Feature"),
      ("geometry", match f.geometry with
        | some g => g.toJson
        | none => .null),
      ("properties", .object f.properties)] ++
    match f.id with
    | some id => [("id", id.toJson)]
    | none => []

end FeatureQuery
