import FeatureQuery.Json.Basic

/-!
# Geometries

A geometry is a shape with coordinates, or a collection of geometries. Its bounding box and its
members beyond those that the format names are kept, so that a geometry is written back with all
that it held. The members that are kept are what is left when the others were taken out, each of
which brings the last member into its place: they need not stand in the order in which they were
given. A position has at least two numbers; nothing else is asked of coordinates.
-/

namespace FeatureQuery

/-- The numbers of a position, at least two where one is read. -/
abbrev Position := List Double

/-- A shape with its coordinates. -/
inductive Shape where
  /-- One position. -/
  | point (position : Position)
  /-- Several positions. -/
  | multiPoint (positions : List Position)
  /-- A line through positions. -/
  | lineString (positions : List Position)
  /-- Several lines. -/
  | multiLineString (lines : List (List Position))
  /-- An area: its outer ring, then its holes. -/
  | polygon (rings : List (List Position))
  /-- Several areas. -/
  | multiPolygon (polygons : List (List (List Position)))
  deriving DecidableEq

/-- What a geometry holds besides its shape. -/
structure Extras where
  /-- The bounding box. -/
  bbox : Option (List Double)
  /-- The members that the format does not name. -/
  others : List (String × Json)

/-- A geometry. -/
inductive Geometry where
  /-- A shape. -/
  | shape (shape : Shape) (extras : Extras)
  /-- A collection of geometries. -/
  | collection (geometries : List Geometry) (extras : Extras)

/-! ### Reading -/

namespace Json

/-- An array whose items are all read. -/
def listOf? {α : Type} (read? : Json → Option α) (v : Json) : Option (List α) :=
  v.items?.bind fun items => items.mapM read?

/-- An array of numbers. -/
def doubles? (v : Json) : Option (List Double) := v.listOf? double?

/-- An array of two numbers or more. -/
def position? (v : Json) : Option Position :=
  v.doubles?.bind fun numbers => if 2 ≤ numbers.length then some numbers else none

end Json

/-- The shape of the given type with the given coordinates. -/
def Shape.read? (kind : String) (coordinates : Json) : Option Shape :=
  if kind = "Point" then coordinates.position?.map .point
  else if kind = "MultiPoint" then (coordinates.listOf? Json.position?).map .multiPoint
  else if kind = "LineString" then (coordinates.listOf? Json.position?).map .lineString
  else if kind = "MultiLineString" then
    (coordinates.listOf? (Json.listOf? Json.position?)).map .multiLineString
  else if kind = "Polygon" then (coordinates.listOf? (Json.listOf? Json.position?)).map .polygon
  else if kind = "MultiPolygon" then
    (coordinates.listOf? (Json.listOf? (Json.listOf? Json.position?))).map .multiPolygon
  else none

/-- The bounding box among the members of an object: none if it is absent or null, and otherwise an
array of numbers. -/
def readBbox? (members : List (String × Json)) : Option (Option (List Double)) :=
  match Entries.get? "bbox" members with
  | none | some .null => some none
  | some v => v.doubles?.map some

/-- The bounding box, and what is left of the members when those named and the box are taken out. -/
def Extras.read? (named : List String) (members : List (String × Json)) : Option Extras :=
  (readBbox? members).map fun bbox =>
    { bbox, others := Entries.swapRemoveAll (named ++ ["bbox"]) members }

/-- What is found in an array under a name is smaller than the object. -/
theorem Json.sizeOf_lt_of_get? {members : List (String × Json)} {key : String} {items : List Json}
    {v : Json} (h : Entries.get? key members = some (.array items)) (hv : v ∈ items) :
    sizeOf v < sizeOf (Json.object members) := by
  have h1 := List.sizeOf_lt_of_mem (Entries.mem_of_get? h)
  have h2 := List.sizeOf_lt_of_mem hv
  simp only [Prod.mk.sizeOf_spec, Json.array.sizeOf_spec] at h1
  simp only [Json.object.sizeOf_spec]
  omega

/-- The geometry that an object denotes. -/
def Geometry.read? : Json → Option Geometry
  | .object members =>
    match Entries.get? "type" members with
    | some (.string kind) =>
      if kind = "GeometryCollection" then
        match _h : Entries.get? "geometries" members with
        | some (.array items) => do
          let geometries ← items.attach.mapM fun ⟨item, _⟩ => Geometry.read? item
          let extras ← Extras.read? ["type", "geometries"] members
          some (.collection geometries extras)
        | _ => none
      else do
        let coordinates ← Entries.get? "coordinates" members
        let shape ← Shape.read? kind coordinates
        let extras ← Extras.read? ["type", "coordinates"] members
        some (.shape shape extras)
    | _ => none
  | _ => none
termination_by v => sizeOf v
decreasing_by exact Json.sizeOf_lt_of_get? _h ‹_›

/-! ### Writing -/

/-- Numbers as an array. -/
def Json.ofDoubles (numbers : List Double) : Json :=
  .array (numbers.map fun d => .number (.double d))

/-- Positions as an array. -/
def Json.ofPositions (positions : List Position) : Json := .array (positions.map Json.ofDoubles)

/-- Lists of positions as an array. -/
def Json.ofLines (lines : List (List Position)) : Json := .array (lines.map Json.ofPositions)

/-- The name of the shape's type. -/
def Shape.kind : Shape → String
  | .point _ => "Point"
  | .multiPoint _ => "MultiPoint"
  | .lineString _ => "LineString"
  | .multiLineString _ => "MultiLineString"
  | .polygon _ => "Polygon"
  | .multiPolygon _ => "MultiPolygon"

/-- The coordinates of a shape. -/
def Shape.coordinates : Shape → Json
  | .point position => Json.ofDoubles position
  | .multiPoint positions | .lineString positions => Json.ofPositions positions
  | .multiLineString lines | .polygon lines => Json.ofLines lines
  | .multiPolygon polygons => .array (polygons.map Json.ofLines)

/-- The members that a geometry holds besides its shape. -/
def Extras.members (extras : Extras) : List (String × Json) :=
  (match extras.bbox with
    | some bbox => [("bbox", Json.ofDoubles bbox)]
    | none => []) ++ extras.others

mutual

/-- The object that denotes a geometry. -/
def Geometry.toJson : Geometry → Json
  | .shape s extras =>
    .object (("type", .string s.kind) :: ("coordinates", s.coordinates) :: extras.members)
  | .collection geometries extras =>
    .object (("type", .string "GeometryCollection") ::
      ("geometries", .array (Geometry.listToJson geometries)) :: extras.members)

/-- The objects that denote geometries. -/
def Geometry.listToJson : List Geometry → List Json
  | [] => []
  | g :: rest => g.toJson :: Geometry.listToJson rest

end

end FeatureQuery
