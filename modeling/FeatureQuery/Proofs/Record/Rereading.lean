import FeatureQuery.Proofs.GeoJson.Geometries
import FeatureQuery.Proofs.Outcome
import FeatureQuery.Record.Load

/-!
# Records read back from their features

A record that was loaded is kept by its feature (`Record.IsKept`): its geometry is one that is read
back, its id is in range, and each of its values is null, a finite number or a text, so that the
property which holds the value denotes it again. Truth values and nested values have become texts
when the record was loaded, and stay texts.

Two records are the same (`Record.Same`) if they differ at most in the order of the members of their
geometries that the format does not name. Every loaded record is kept (`isKept_of_load`). The
feature of a record that is kept is read as a feature (`read?_toFeature`) of the same record
(`IsKept.same_reread`).
-/

namespace FeatureQuery

/-! ### Values -/

namespace Value

/-- The property that holds the value denotes it, and needs no level. -/
structure IsKept (v : Value) : Prop where
  /-- The property is a value without items and members. -/
  fits : ∀ n, v.toJson.Fits n
  /-- The property denotes the value. -/
  ofJson_toJson : ofJson v.toJson = v

/-- **What a property denotes is kept.** -/
theorem isKept_ofJson {v : Json} {n : Nat} (h : v.Fits n) : (ofJson v).IsKept := by
  cases h with
  | null => exact ⟨fun _ => .null, rfl⟩
  | number h =>
    obtain ⟨negative, m, hm⟩ := JsonNumber.exists_toDouble_eq h
    rw [ofJson, hm]
    exact ⟨fun _ => .number ⟨negative, m, rfl⟩, rfl⟩
  | bool | string | array | object => exact ⟨fun _ => .string _, rfl⟩

end Value

/-! ### Records -/

namespace Record

/-- The feature of the record, at most `maxNesting` levels deep, denotes the record. -/
structure IsKept (r : Record) : Prop where
  /-- The geometry is read back. -/
  geometry : ∀ g ∈ r.geometry, g.IsRestored (Json.maxNesting - 1)
  /-- The id is a text or a number in range. -/
  id : ∀ i ∈ r.id, ∀ n, i.toJson.Fits n
  /-- The values are kept. -/
  attributes : ∀ entry ∈ r.attributes.entries, entry.2.IsKept

/-! #### What was loaded -/

/-- A feature whose object nests at most `maxNesting` levels deep gives a record that is kept. -/
theorem isKept_ofMembers {members : List (String × Json)} {f : Feature} {n : Nat}
    (hn : n + 1 ≤ Json.maxNesting) (hfits : (Json.object members).Fits (n + 1))
    (h : Feature.ofMembers? members = some f) : (ofFeature f).IsKept := by
  have hmembers := (Json.fits_object_iff.1 hfits).2
  simp only [Feature.ofMembers?, Option.bind_eq_bind, Option.bind_eq_some_iff,
    Option.some.injEq] at h
  obtain ⟨geometry, hgeometry, properties, hproperties, id, hid, bbox, -, rfl⟩ := h
  refine ⟨?_, ?_, ?_⟩
  · rintro g rfl
    unfold Feature.readGeometry? at hgeometry
    split at hgeometry
    · cases hgeometry
    · cases hgeometry
    · rename_i v _ hv
      obtain ⟨g', hg, heq⟩ := Option.map_eq_some_iff.1 hgeometry
      cases heq
      have hvfits := hmembers _ (Entries.mem_of_get? hv)
      exact Geometry.isRestored_of_read? (hvfits.mono (by omega)) hg
  · rintro i rfl m
    unfold Feature.readId? at hid
    split at hid
    · cases hid
    · rename_i k hk
      cases hid
      cases hmembers _ (Entries.mem_of_get? hk) with
      | number h => exact .number h
    · cases hid
      exact .string _
    · cases hid
  · intro entry hentry
    obtain ⟨property, hproperty, rfl⟩ := List.mem_map.1 (OrderedMap.mem_of_mem_ofList hentry)
    unfold Feature.readProperties? at hproperties
    split at hproperties
    · cases hproperties
      cases hproperty
    · cases hproperties
      cases hproperty
    · rename_i v _ hv
      cases hmembers _ (Entries.mem_of_get? hv) with
      | object _ hall =>
        cases hproperties
        exact Value.isKept_ofJson (hall property hproperty)
      | _ => cases hproperties

theorem isKept_of_read? {v : Json} {f : Feature} {n : Nat} (hn : n ≤ Json.maxNesting)
    (hv : v.Fits n) (h : Feature.read? v = some f) : (ofFeature f).IsKept := by
  simp only [Feature.read?, Option.bind_eq_bind, Option.bind_eq_some_iff] at h
  obtain ⟨members, hmembers, h⟩ := h
  split at h
  · cases hv with
    | object hkeys hall =>
      cases hmembers
      exact isKept_ofMembers hn (.object hkeys hall) h
    | _ => cases hmembers
  · cases h

theorem isKept_of_listOf? {v : Json} {features : List Feature} {n : Nat} (hn : n ≤ Json.maxNesting)
    (hv : v.Fits n) (h : v.listOf? Feature.read? = some features) :
    ∀ f ∈ features, (ofFeature f).IsKept := by
  obtain ⟨items, hitems, h⟩ := Option.bind_eq_some_iff.1 h
  cases hv with
  | array hall =>
    cases hitems
    intro f hf
    obtain ⟨item, hitem, hread⟩ := Json.exists_of_mapM h hf
    exact isKept_of_read? (by omega) (hall item hitem) hread
  | _ => cases hitems

/-- The records of a document are kept. -/
theorem isKept_of_document {s : String} {document : Document} {records : List Record}
    (hread : Document.read? s = some document) (h : ofDocument document = .ok records) :
    ∀ r ∈ records, r.IsKept := by
  obtain ⟨v, hv, hdocument⟩ := Option.bind_eq_some_iff.1 hread
  have hfits := Json.fits_of_read? hv
  simp only [Document.ofJson?, Option.bind_eq_bind, Option.bind_eq_some_iff] at hdocument
  obtain ⟨members, hmembers, kind, hkind, hdocument⟩ := hdocument
  cases hfits with
  | object hkeys hall =>
    cases hmembers
    split at hdocument
    · simp only [Option.bind_eq_some_iff, Option.some.injEq] at hdocument
      obtain ⟨features, ⟨items, hitems, hfeatures⟩, bbox, -, rfl⟩ := hdocument
      cases h
      have hkept := isKept_of_listOf? (by decide) (hall _ (Entries.mem_of_get? hitems)) hfeatures
      simpa using hkept
    · split at hdocument
      · obtain ⟨f, hf, rfl⟩ := Option.map_eq_some_iff.1 hdocument
        cases h
        have hkept := isKept_ofMembers (by decide) (.object hkeys hall) hf
        simpa using hkept
      · obtain ⟨g, -, rfl⟩ := Option.map_eq_some_iff.1 hdocument
        cases h
  | _ => cases hmembers

theorem isKept_of_loadLines {number : Nat} {lines : List (List Char)} {records : List Record}
    (h : loadLines number lines = .ok records) : ∀ r ∈ records, r.IsKept := by
  induction lines generalizing number records with
  | nil =>
    cases h
    simp
  | cons line rest ih =>
    obtain ⟨first, hfirst, h⟩ := bind_eq_ok_iff.1 h
    obtain ⟨others, hothers, heq⟩ := bind_eq_ok_iff.1 h
    cases heq
    have hline : ∀ r ∈ first, r.IsKept := by
      simp only [loadLine] at hfirst
      split at hfirst
      · cases hfirst
        simp
      · split at hfirst
        · exact isKept_of_document ‹_› hfirst
        · cases hfirst
    exact List.forall_mem_append.2 ⟨hline, ih hothers⟩

/-- **Every loaded record is kept.** -/
theorem isKept_of_load {content : String} {records : List Record}
    (h : load content = .ok records) : ∀ r ∈ records, r.IsKept := by
  rw [load] at h
  split at h
  · exact isKept_of_document ‹_› h
  · exact isKept_of_loadLines h

/-! #### What is written -/

/-- The geometry of a feature as a JSON value. -/
def geometryJson : Option Geometry → Json
  | some g => g.toJson
  | none => .null

/-- The id of a feature as members. -/
def idMembers : Option FeatureId → List (String × Json)
  | some id => [("id", id.toJson)]
  | none => []

/-- The members of the record's feature. -/
def featureMembers (r : Record) : List (String × Json) :=
  ("type", .string "Feature") :: ("geometry", geometryJson r.geometry) ::
    ("properties", .object r.toFeature.properties) :: idMembers r.id

theorem toJson_toFeature (r : Record) : r.toFeature.toJson = .object r.featureMembers := rfl

/-- The record of the feature is the record, if its values are kept. -/
theorem ofFeature_toFeature {r : Record} (h : ∀ entry ∈ r.attributes.entries, entry.2.IsKept) :
    ofFeature r.toFeature = r := by
  have hentries : (r.toFeature.properties.map fun p => (p.1, Value.ofJson p.2)) =
      r.attributes.entries := by
    rw [toFeature, List.map_map]
    refine (List.map_congr_left fun entry hentry => ?_).trans (List.map_id _)
    exact congrArg (Prod.mk entry.1) (h entry hentry).ofJson_toJson
  rw [ofFeature, hentries, OrderedMap.ofList_entries]
  rfl

/-! #### What is read again -/

/-- Two records are the same, but for the order of the members of their geometries that the format
does not name. -/
structure Same (r again : Record) : Prop where
  id : r.id = again.id
  geometry : Option.Rel Geometry.Same r.geometry again.geometry
  attributes : r.attributes = again.attributes

/-- What a record is loaded as after it was written. -/
def reread (r : Record) : Record := { r with geometry := r.geometry.map Geometry.reread }

namespace IsKept

variable {r : Record}

/-- **A record that is kept is the same afterwards.** -/
theorem same_reread (h : r.IsKept) : r.Same r.reread := by
  refine ⟨rfl, ?_, rfl⟩
  rw [reread]
  cases hgeometry : r.geometry with
  | none => exact .none
  | some g => exact .some (h.geometry g hgeometry).same_reread

/-- The record that is read again is that of its feature. -/
theorem ofFeature_reread (h : r.IsKept) : ofFeature r.reread.toFeature = r.reread :=
  ofFeature_toFeature h.attributes

theorem readGeometry?_eq (h : r.IsKept) :
    Feature.readGeometry? r.featureMembers = some r.reread.geometry := by
  rw [featureMembers, reread]
  cases hgeometry : r.geometry with
  | none => rfl
  | some g =>
    have hread := (h.geometry g hgeometry).read?_toJson
    cases g with
    | shape | collection => exact congrArg (Option.map some) hread

theorem readId?_eq (r : Record) : Feature.readId? r.featureMembers = some r.id := by
  rw [featureMembers]
  cases r.id with
  | none => rfl
  | some id => cases id <;> rfl

theorem readBbox?_eq (r : Record) : readBbox? r.featureMembers = some none := by
  rw [featureMembers]
  cases r.id <;> rfl

/-- The feature of the record is read from its members. -/
theorem ofMembers?_eq (h : r.IsKept) :
    Feature.ofMembers? r.featureMembers = some r.reread.toFeature := by
  have hproperties : Feature.readProperties? r.featureMembers = some r.toFeature.properties := rfl
  simp only [Feature.ofMembers?, h.readGeometry?_eq, hproperties, readId?_eq, readBbox?_eq,
    Option.bind_eq_bind, Option.bind_some]
  rfl

/-- **The feature of a record is read back.** -/
theorem read?_toFeature (h : r.IsKept) :
    Feature.read? r.toFeature.toJson = some r.reread.toFeature :=
  h.ofMembers?_eq

/-- A document that is the feature of a record is read as a feature. -/
theorem ofJson?_toFeature (h : r.IsKept) :
    Document.ofJson? r.toFeature.toJson = some (.feature r.reread.toFeature) :=
  congrArg (Option.map Document.feature) h.ofMembers?_eq

/-- **The feature of a record fits the limit.** -/
theorem fits_toFeature (h : r.IsKept) : r.toFeature.toJson.Fits Json.maxNesting := by
  have hgeometry : (geometryJson r.geometry).Fits (Json.maxNesting - 1) := by
    cases hg : r.geometry with
    | none => exact .null
    | some g => exact (h.geometry g hg).fits
  have hproperties : (Json.object r.toFeature.properties).Fits (Json.maxNesting - 1) := by
    refine .object ?_ ?_
    · rw [Entries.keys, toFeature, List.map_map]
      exact r.attributes.nodup_keys
    · intro property hproperty
      obtain ⟨entry, hentry, rfl⟩ := List.mem_map.1 hproperty
      exact (h.attributes entry hentry).fits _
  have hid : ∀ member ∈ idMembers r.id, member.2.Fits (Json.maxNesting - 1) := by
    cases hi : r.id with
    | none => exact List.forall_mem_nil _
    | some id => simpa [idMembers] using h.id id hi _
  have hkeys : (Entries.keys r.featureMembers).Nodup := by
    cases hi : r.id <;> simp [featureMembers, idMembers, hi]
  have hmembers : ∀ member ∈ r.featureMembers, member.2.Fits (Json.maxNesting - 1) := by
    simp only [featureMembers, List.forall_mem_cons]
    exact ⟨.string _, hgeometry, hproperties, hid⟩
  exact .object hkeys hmembers

end IsKept

end Record

end FeatureQuery
