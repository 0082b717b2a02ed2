import FeatureQuery.GeoJson.Feature
import FeatureQuery.Record.Value

/-!
# Records and schemas

A record is what a query looks at: named attributes in order, with the id and the geometry of the
feature it was made from, so that it can be written as a feature again. The schema of a list of
records is the names of their attributes in the order in which they first come up
(`Schema.mem_ofRecords`).
-/

namespace FeatureQuery

/-- One entity that queries select. -/
structure Record where
  /-- What identifies the feature. -/
  id : Option FeatureId := none
  /-- Where the feature is. -/
  geometry : Option Geometry := none
  /-- The attributes, in order. -/
  attributes : OrderedMap Value := OrderedMap.empty

namespace Record

/-- The value of an attribute; one that the record lacks is null. -/
def value (r : Record) (field : String) : Value := (r.attributes.get? field).getD .null

/-- The record with the attributes of a list; where a name is repeated the last value counts. -/
def ofAttributes (attributes : List (String × Value)) : Record :=
  { attributes := OrderedMap.ofList attributes }

/-- The record of a feature. -/
def ofFeature (f : Feature) : Record :=
  { id := f.id
    geometry := f.geometry
    attributes := OrderedMap.ofList (f.properties.map fun p => (p.1, Value.ofJson p.2)) }

/-- The feature of a record. -/
def toFeature (r : Record) : Feature :=
  { id := r.id
    geometry := r.geometry
    properties := r.attributes.entries.map fun a => (a.1, a.2.toJson) }

/-- The JSON text of the record's feature. -/
def featureText (r : Record) : String := r.toFeature.toJson.text

end Record

/-! ### Schemas -/

/-- The names that queries on a list of records may use. -/
structure Schema where
  /-- The names, in the order in which they first come up. -/
  fields : List String
  deriving DecidableEq

namespace Schema

/-- The list without the names that came up before. -/
def distinct (seen : List String) : List String → List String
  | [] => []
  | name :: rest =>
    if name ∈ seen then distinct seen rest else name :: distinct (name :: seen) rest

theorem mem_distinct {seen names : List String} {field : String} :
    field ∈ distinct seen names ↔ field ∈ names ∧ field ∉ seen := by
  induction names generalizing seen with
  | nil => simp [distinct]
  | cons name rest ih =>
    by_cases h : name ∈ seen
    · have hne : field ∉ seen → field ≠ name := fun hf e => hf (e ▸ h)
      simp only [distinct, h, ih, if_true, List.mem_cons]
      exact ⟨fun ⟨hr, hs⟩ => ⟨.inr hr, hs⟩,
        fun ⟨hr, hs⟩ => ⟨hr.resolve_left (hne hs), hs⟩⟩
    · by_cases he : field = name
      · subst he
        simp [distinct, h]
      · simp [distinct, h, ih, he]

/-- The schema of the given names. -/
def ofNames (names : List String) : Schema := ⟨distinct [] names⟩

/-- The schema of a list of records. -/
def ofRecords (records : List Record) : Schema :=
  ofNames (records.flatMap fun r => r.attributes.keys)

/-- Whether queries may use the name. -/
def contains (s : Schema) (field : String) : Bool := s.fields.contains field

/-- **A name is in the schema when some record has it.** -/
theorem mem_ofRecords {records : List Record} {field : String} :
    field ∈ (ofRecords records).fields ↔ ∃ r ∈ records, field ∈ r.attributes.keys := by
  simp [ofRecords, ofNames, mem_distinct]

end Schema

end FeatureQuery
