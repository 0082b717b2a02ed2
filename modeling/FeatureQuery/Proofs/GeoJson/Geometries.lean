import FeatureQuery.GeoJson.Geometry
import FeatureQuery.Proofs.Json.Values
import Mathlib.Data.List.Forall2

/-!
# Geometries read back

A value that is read as a geometry need not be written back as it was: its members may stand in
another order, a box that is null is left out, and whole numbers among its coordinates become
doubles. `Json.Restores` says that this is the first change and the last: what is written fits
wherever the value did, and is read as the same again. It holds of numbers, and of lists and shapes
because it holds of what they are made of.

A geometry is read back but for the order of the members that the format does not name, which may
change each time (`Geometry.Same`). `Geometry.reread` is what it is read back as
(`isRestored_of_read?`).
-/

namespace FeatureQuery

namespace Json

variable {α β : Type} {n : Nat} {read? : Json → Option α} {write : α → Json}

/-- What is read in a value with at most `n` levels is written with at most `n` levels again, and
then read again as the same. -/
def Restores (n : Nat) (read? : Json → Option α) (write : α → Json) : Prop :=
  ∀ v a, v.Fits n → read? v = some a → (write a).Fits n ∧ read? (write a) = some a

/-- What is read from items is read from one of them. -/
theorem exists_of_mapM {items : List Json} {as : List α} (h : items.mapM read? = some as) {a : α}
    (ha : a ∈ as) : ∃ v ∈ items, read? v = some a := by
  induction items generalizing as with
  | nil =>
    cases h
    cases ha
  | cons v rest ih =>
    simp only [List.mapM_cons, Option.bind_eq_bind, Option.bind_eq_some_iff, Option.pure_def,
      Option.some.injEq] at h
    obtain ⟨b, hb, others, hothers, rfl⟩ := h
    obtain rfl | ha := List.mem_cons.1 ha
    · exact ⟨v, List.mem_cons_self, hb⟩
    · obtain ⟨w, hw, hread⟩ := ih hothers ha
      exact ⟨w, List.mem_cons_of_mem _ hw, hread⟩

/-- Items that are each read are read together. -/
theorem mapM_map {as : List α} {again : α → β} {read? : Json → Option β}
    (h : ∀ a ∈ as, read? (write a) = some (again a)) :
    (as.map write).mapM read? = some (as.map again) := by
  induction as with
  | nil => rfl
  | cons a rest ih =>
    obtain ⟨ha, hrest⟩ := List.forall_mem_cons.1 h
    rw [List.map_cons, List.mapM_cons, ha, ih hrest]
    rfl

namespace Restores

/-- What is read may be wrapped, if that does not change how it is written. -/
theorem map (h : Restores n read? write) (f : α → β) (write' : β → Json)
    (hwrite : ∀ a, write' (f a) = write a) : Restores n (fun v => (read? v).map f) write' := by
  intro v b hv hread
  obtain ⟨a, ha, rfl⟩ := Option.map_eq_some_iff.1 hread
  obtain ⟨hfits, hagain⟩ := h v a hv ha
  rw [hwrite]
  exact ⟨hfits, congrArg (Option.map f) hagain⟩

theorem mapM (h : Restores n read? write) {items : List Json} {as : List α}
    (hitems : ∀ v ∈ items, v.Fits n) (hread : items.mapM read? = some as) :
    (∀ v ∈ as.map write, v.Fits n) ∧ (as.map write).mapM read? = some as := by
  have hagain : ∀ a ∈ as, (write a).Fits n ∧ read? (write a) = some a := by
    intro a ha
    obtain ⟨v, hv, hread⟩ := exists_of_mapM hread ha
    exact h v a (hitems v hv) hread
  have hsame : (as.map write).mapM read? = some (as.map id) := mapM_map fun a ha => (hagain a ha).2
  rw [List.map_id] at hsame
  exact ⟨List.forall_mem_map.2 fun a ha => (hagain a ha).1, hsame⟩

/-- An array is one level more than its items. -/
theorem listOf (h : ∀ n, Restores n read? write) :
    ∀ n, Restores n (listOf? read?) fun as => .array (as.map write)
  | n, v, as, hv, hread => by
    obtain ⟨items, hitems, hread⟩ := Option.bind_eq_some_iff.1 hread
    cases hv with
    | array hfits =>
      cases hitems
      obtain ⟨hagain, hsame⟩ := (h _).mapM hfits hread
      exact ⟨.array hagain, hsame⟩
    | _ => cases hitems

end Restores

theorem restores_double (n : Nat) : Restores n double? fun d => .number (.double d) := by
  intro v d hv hread
  cases hv with
  | number h =>
    cases hread
    exact ⟨.number (JsonNumber.exists_toDouble_eq h), rfl⟩
  | _ => cases hread

theorem restores_doubles (n : Nat) : Restores n doubles? ofDoubles :=
  Restores.listOf restores_double n

theorem restores_position (n : Nat) : Restores n position? ofDoubles := by
  intro v position hv hread
  obtain ⟨ds, hds, hlength⟩ := Option.bind_eq_some_iff.1 hread
  split at hlength
  · cases hlength
    obtain ⟨hfits, hagain⟩ := restores_doubles n v position hv hds
    exact ⟨hfits, by rw [position?, hagain, Option.bind_some, if_pos ‹_›]⟩
  · cases hlength

theorem restores_positions (n : Nat) : Restores n (listOf? position?) ofPositions :=
  Restores.listOf restores_position n

theorem restores_lines (n : Nat) : Restores n (listOf? (listOf? position?)) ofLines :=
  Restores.listOf restores_positions n

theorem restores_shape (n : Nat) (kind : String) :
    Restores n (Shape.read? kind) Shape.coordinates := by
  intro c s hc hread
  unfold Shape.read? at hread
  split at hread
  · subst kind
    exact (restores_position n).map .point Shape.coordinates (fun _ => rfl) c s hc hread
  split at hread
  · subst kind
    exact (restores_positions n).map .multiPoint Shape.coordinates (fun _ => rfl) c s hc hread
  split at hread
  · subst kind
    exact (restores_positions n).map .lineString Shape.coordinates (fun _ => rfl) c s hc hread
  split at hread
  · subst kind
    exact (restores_lines n).map .multiLineString Shape.coordinates (fun _ => rfl) c s hc hread
  split at hread
  · subst kind
    exact (restores_lines n).map .polygon Shape.coordinates (fun _ => rfl) c s hc hread
  split at hread
  · subst kind
    have hpolygons := Restores.listOf restores_lines n
    exact hpolygons.map .multiPolygon Shape.coordinates (fun _ => rfl) c s hc hread
  · cases hread

end Json

/-- A shape is read under the name of its type. -/
theorem Shape.kind_eq_of_read? {kind : String} {c : Json} {s : Shape}
    (h : Shape.read? kind c = some s) : s.kind = kind := by
  unfold Shape.read? at h
  repeat'
    split at h
  case isFalse => cases h
  all_goals
    obtain ⟨_, -, rfl⟩ := Option.map_eq_some_iff.1 h
    exact (‹kind = _›).symm

theorem Shape.kind_ne (s : Shape) : s.kind ≠ "GeometryCollection" := by
  cases s <;> simp [Shape.kind]

/-! ### What a geometry holds besides its shape -/

/-- A bounding box is read back. -/
theorem bbox_restores {n : Nat} {entries : List (String × Json)} {bbox : Option (List Double)}
    (hfits : (Json.object entries).Fits (n + 1)) (h : readBbox? entries = some bbox) :
    ∀ b ∈ bbox, (Json.ofDoubles b).Fits n ∧ (Json.ofDoubles b).doubles? = some b := by
  intro b hb
  cases hb
  unfold readBbox? at h
  split at h
  · cases h
  · cases h
  · rename_i v _ hv
    obtain ⟨ds, hds, heq⟩ := Option.map_eq_some_iff.1 h
    cases heq
    have hvfits := (Json.fits_object_iff.1 hfits).2 _ (Entries.mem_of_get? hv)
    exact Json.restores_doubles n v b hvfits hds

namespace Extras

/-- The box is the same, and so are the members, in some order. -/
structure Same (extras again : Extras) : Prop where
  bbox : extras.bbox = again.bbox
  others : extras.others.Perm again.others

variable {n : Nat} {named : List String} {entries lead : List (String × Json)} {extras : Extras}

/-- The members that are kept are those under other names than the ones that are taken out. -/
theorem others_perm_of_read? (hkeys : (Entries.keys entries).Nodup)
    (h : read? named entries = some extras) :
    extras.others.Perm (entries.filter fun member => !(named ++ ["bbox"]).contains member.1) := by
  obtain ⟨bbox, -, rfl⟩ := Option.map_eq_some_iff.1 h
  exact Entries.swapRemoveAll_perm _ hkeys

/-- The members that are kept are named neither by the format nor as a box. -/
theorem notMem_keys_of_read? (hkeys : (Entries.keys entries).Nodup)
    (h : read? named entries = some extras) {key : String} (hkey : key ∈ named ++ ["bbox"]) :
    key ∉ Entries.keys extras.others := by
  intro hmem
  obtain ⟨member, hmember, rfl⟩ := List.mem_map.1 hmem
  have hother := (List.mem_filter.1 ((others_perm_of_read? hkeys h).subset hmember)).2
  rw [List.contains_iff_mem.2 hkey] at hother
  cases hother

/-- The members that are kept are those of the object. -/
theorem others_subset_of_read? (hkeys : (Entries.keys entries).Nodup)
    (h : read? named entries = some extras) : extras.others ⊆ entries := fun _ hmember =>
  List.mem_of_mem_filter ((others_perm_of_read? hkeys h).subset hmember)

theorem nodup_keys_others_of_read? (hkeys : (Entries.keys entries).Nodup)
    (h : read? named entries = some extras) : (Entries.keys extras.others).Nodup :=
  ((others_perm_of_read? hkeys h).map Prod.fst).nodup_iff.2
    (hkeys.sublist (List.filter_sublist.map Prod.fst))

theorem readBbox?_eq_of_read? (h : read? named entries = some extras) :
    readBbox? entries = some extras.bbox := by
  obtain ⟨bbox, hbbox, rfl⟩ := Option.map_eq_some_iff.1 h
  exact hbbox

theorem keys_members_sublist (extras : Extras) :
    (Entries.keys extras.members).Sublist ("bbox" :: Entries.keys extras.others) := by
  obtain ⟨bbox, others⟩ := extras
  cases bbox with
  | none => exact List.sublist_cons_self _ _
  | some b => exact List.Sublist.refl _

theorem forall_mem_members {P : Json → Prop} (hbbox : ∀ b ∈ extras.bbox, P (Json.ofDoubles b))
    (hothers : ∀ member ∈ extras.others, P member.2) : ∀ member ∈ extras.members, P member.2 := by
  obtain ⟨bbox, others⟩ := extras
  cases bbox with
  | none => exact hothers
  | some b => exact List.forall_mem_cons.2 ⟨hbbox b rfl, hothers⟩

/-- The box is found among what follows the members of the shape. -/
theorem readBbox?_append (hbbox : "bbox" ∉ Entries.keys lead)
    (hothers : "bbox" ∉ Entries.keys extras.others)
    (hread : ∀ b ∈ extras.bbox, (Json.ofDoubles b).doubles? = some b) :
    readBbox? (lead ++ extras.members) = some extras.bbox := by
  rw [readBbox?, Entries.get?_append hbbox]
  obtain ⟨bbox, others⟩ := extras
  cases bbox with
  | none =>
    have hnone : Entries.get? "bbox" (members ⟨none, others⟩) = none :=
      Entries.get?_eq_none hothers
    rw [hnone]
  | some b => exact congrArg (Option.map some) (hread b rfl)

/-- The members that are kept are found again among what is written. -/
theorem filter_append
    (hothers : ∀ key ∈ Entries.keys lead ++ ["bbox"], key ∉ Entries.keys extras.others) :
    ((lead ++ extras.members).filter fun member =>
      !(Entries.keys lead ++ ["bbox"]).contains member.1) = extras.others := by
  have hgone : ∀ member ∈ lead,
      ¬(!(Entries.keys lead ++ ["bbox"]).contains member.1) = true := by
    intro member hmember
    have hkey : member.1 ∈ Entries.keys lead := List.mem_map_of_mem hmember
    simp [hkey]
  have hkept : ∀ member ∈ extras.others,
      (!(Entries.keys lead ++ ["bbox"]).contains member.1) = true := by
    intro member hmember
    have hkey := mt (hothers member.1) (not_not.2 (List.mem_map_of_mem hmember))
    simpa using hkey
  rw [List.filter_append, List.filter_eq_nil_iff.2 hgone, List.nil_append, members,
    List.filter_append, List.filter_eq_self.2 hkept]
  cases extras.bbox <;> simp

/-- No name comes up twice where what is kept follows the members of the shape. -/
theorem nodup_keys_append (hlead : (Entries.keys lead).Nodup) (hbbox : "bbox" ∉ Entries.keys lead)
    (hkeys : (Entries.keys extras.others).Nodup)
    (hothers : ∀ key ∈ Entries.keys lead ++ ["bbox"], key ∉ Entries.keys extras.others) :
    (Entries.keys (lead ++ extras.members)).Nodup := by
  have hsub : (Entries.keys (lead ++ extras.members)).Sublist
      (Entries.keys lead ++ "bbox" :: Entries.keys extras.others) := by
    rw [Entries.keys, List.map_append]
    exact List.Sublist.append_left (keys_members_sublist extras) _
  refine List.Nodup.sublist hsub (List.nodup_append.2 ⟨hlead, ?_, ?_⟩)
  · exact List.nodup_cons.2 ⟨hothers "bbox" (by simp), hkeys⟩
  · rintro key hkey other hother rfl
    obtain rfl | hother := List.mem_cons.1 hother
    · exact hbbox hkey
    · exact hothers key (List.mem_append_left _ hkey) hother

/-- **What a geometry holds besides its shape is read back** behind the members of the shape, in
some order. -/
theorem restores (h : read? named entries = some extras)
    (hfits : (Json.object entries).Fits (n + 1)) (hlead : (Json.object lead).Fits (n + 1))
    (hnamed : Entries.keys lead = named) (hbbox : "bbox" ∉ named) :
    (Json.object (lead ++ extras.members)).Fits (n + 1) ∧
      ∃ again, extras.Same again ∧ read? named (lead ++ extras.members) = some again := by
  subst hnamed
  have hboxes := bbox_restores hfits (readBbox?_eq_of_read? h)
  rw [Json.fits_object_iff] at hfits hlead
  have hothers : ∀ key ∈ Entries.keys lead ++ ["bbox"], key ∉ Entries.keys extras.others :=
    fun _ => notMem_keys_of_read? hfits.1 h
  have hkeys : (Entries.keys (lead ++ extras.members)).Nodup :=
    nodup_keys_append hlead.1 hbbox (nodup_keys_others_of_read? hfits.1 h) hothers
  constructor
  · refine .object hkeys ?_
    intro member hmember
    obtain hmember | hmember := List.mem_append.1 hmember
    · exact hlead.2 member hmember
    · refine forall_mem_members (P := Json.Fits n) (fun b hb => (hboxes b hb).1) ?_ member hmember
      exact fun other hother => hfits.2 other (others_subset_of_read? hfits.1 h hother)
  · have hbox : readBbox? (lead ++ extras.members) = some extras.bbox :=
      readBbox?_append hbbox (hothers "bbox" (by simp)) fun b hb => (hboxes b hb).2
    have hleft := Entries.swapRemoveAll_perm (Entries.keys lead ++ ["bbox"]) hkeys
    rw [filter_append hothers] at hleft
    let left := Entries.swapRemoveAll (Entries.keys lead ++ ["bbox"]) (lead ++ extras.members)
    refine ⟨⟨extras.bbox, left⟩, ⟨rfl, hleft.symm⟩, ?_⟩
    rw [read?, hbox, Option.map_some]

end Extras

/-! ### Geometries -/

namespace Geometry

/-- The members denote a geometry: a shape of the type that they name, or a collection. -/
inductive Reads (entries : List (String × Json)) : Geometry → Prop where
  /-- A shape with its coordinates. -/
  | shape {s : Shape} {coordinates : Json} {extras : Extras}
      (htype : Entries.get? "type" entries = some (.string s.kind))
      (hcoordinates : Entries.get? "coordinates" entries = some coordinates)
      (hshape : Shape.read? s.kind coordinates = some s)
      (hextras : Extras.read? ["type", "coordinates"] entries = some extras) :
      Reads entries (.shape s extras)
  /-- A collection of geometries. -/
  | collection {items : List Json} {geometries : List Geometry} {extras : Extras}
      (htype : Entries.get? "type" entries = some (.string "GeometryCollection"))
      (hitems : Entries.get? "geometries" entries = some (.array items))
      (hgeometries : items.mapM read? = some geometries)
      (hextras : Extras.read? ["type", "geometries"] entries = some extras) :
      Reads entries (.collection geometries extras)

theorem read?_object_iff {entries : List (String × Json)} {g : Geometry} :
    read? (.object entries) = some g ↔ Reads entries g := by
  rw [read?]
  constructor
  · intro h
    split at h
    · rename_i kind htype
      split at h
      · subst kind
        split at h
        · rename_i items hitems
          rw [List.mapM_subtype (g := read?) fun _ _ => rfl, List.unattach_attach] at h
          simp only [Option.bind_eq_bind, Option.bind_eq_some_iff, Option.some.injEq] at h
          obtain ⟨geometries, hgeometries, extras, hextras, rfl⟩ := h
          exact .collection htype hitems hgeometries hextras
        · cases h
      · simp only [Option.bind_eq_bind, Option.bind_eq_some_iff, Option.some.injEq] at h
        obtain ⟨coordinates, hcoordinates, s, hs, extras, hextras, rfl⟩ := h
        obtain rfl := Shape.kind_eq_of_read? hs
        exact .shape htype hcoordinates hs hextras
    · cases h
  · rintro (⟨htype, hcoordinates, hshape, hextras⟩ | ⟨htype, hitems, hgeometries, hextras⟩)
    · rename_i s coordinates extras
      simp only [htype, if_neg s.kind_ne, hcoordinates, hshape, hextras, Option.bind_eq_bind,
        Option.bind_some]
    · simp only [htype, if_true]
      split
      · rename_i items' hitems'
        rw [hitems] at hitems'
        cases hitems'
        rw [List.mapM_subtype (g := read?) fun _ _ => rfl, List.unattach_attach]
        simp only [hgeometries, hextras, Option.bind_eq_bind, Option.bind_some]
      · rename_i hnone
        exact (hnone _ hitems).elim

theorem listToJson_eq_map (geometries : List Geometry) :
    listToJson geometries = geometries.map toJson := by
  induction geometries with
  | nil => rfl
  | cons g rest ih => rw [listToJson, ih, List.map_cons]

/-- Two geometries are the same, but for the order of the members that the format does not name. -/
inductive Same : Geometry → Geometry → Prop where
  /-- A shape. -/
  | shape (s : Shape) {extras again : Extras} (h : extras.Same again) :
      Same (.shape s extras) (.shape s again)
  /-- A collection of geometries. -/
  | collection {geometries others : List Geometry} {extras again : Extras}
      (hgeometries : List.Forall₂ Same geometries others) (h : extras.Same again) :
      Same (.collection geometries extras) (.collection others again)

/-- What a geometry is read as after it was written. -/
def reread (g : Geometry) : Geometry := (read? g.toJson).getD g

/-- A geometry is read back, nests no deeper than a limit when it is written, and is the same
afterwards. -/
structure IsRestored (n : Nat) (g : Geometry) : Prop where
  fits : g.toJson.Fits n
  read?_toJson : read? g.toJson = some g.reread
  same_reread : g.Same g.reread

namespace IsRestored

variable {n : Nat} {g again : Geometry} {geometries : List Geometry}

theorem intro (hfits : g.toJson.Fits n) (hread : read? g.toJson = some again)
    (hsame : g.Same again) : g.IsRestored n := by
  have hreread : g.reread = again := by rw [reread, hread, Option.getD_some]
  exact ⟨hfits, hreread ▸ hread, hreread ▸ hsame⟩

theorem fits_listToJson (h : ∀ g ∈ geometries, g.IsRestored n) :
    ∀ v ∈ listToJson geometries, v.Fits n := by
  rw [listToJson_eq_map]
  exact List.forall_mem_map.2 fun g hg => (h g hg).fits

theorem mapM_listToJson (h : ∀ g ∈ geometries, g.IsRestored n) :
    (listToJson geometries).mapM read? = some (geometries.map reread) := by
  rw [listToJson_eq_map]
  exact Json.mapM_map fun g hg => (h g hg).read?_toJson

theorem forall₂_same (h : ∀ g ∈ geometries, g.IsRestored n) :
    List.Forall₂ Same geometries (geometries.map reread) :=
  List.forall₂_map_right_iff.2 (List.forall₂_same.2 fun g hg => (h g hg).same_reread)

end IsRestored

/-- **A geometry that was read is read back**, and nests no deeper when it is written. -/
theorem isRestored_of_read? {n : Nat} {v : Json} {g : Geometry} (hv : v.Fits n)
    (hread : read? v = some g) : g.IsRestored n := by
  induction n using Nat.strongRecOn generalizing v g with
  | _ n ih =>
    cases hv with
    | @object n entries hkeys hmembers =>
      have hfits : (Json.object entries).Fits (n + 1) := .object hkeys hmembers
      rw [read?_object_iff] at hread
      cases hread with
      | @shape s coordinates extras htype hcoordinates hshape hextras =>
        have hc := hmembers _ (Entries.mem_of_get? hcoordinates)
        obtain ⟨hagain, hread⟩ := Json.restores_shape n s.kind coordinates s hc hshape
        have hnames : ["type", "coordinates"].Nodup := by decide
        have hlead : (Json.object [("type", .string s.kind), ("coordinates", s.coordinates)]).Fits
            (n + 1) := .object hnames (by simpa using ⟨.string _, hagain⟩)
        obtain ⟨hwritten, again, hsame, hextras⟩ :=
          Extras.restores hextras hfits hlead rfl (by decide)
        exact .intro hwritten (read?_object_iff.2 (.shape rfl rfl hread hextras)) (.shape s hsame)
      | @collection items geometries extras htype hitems hgeometries hextras =>
        have harray := hmembers _ (Entries.mem_of_get? hitems)
        cases harray with
        | @array k _ hitemsFit =>
          have hrestored : ∀ g ∈ geometries, g.IsRestored k := by
            intro g hg
            obtain ⟨item, hitem, hread⟩ := Json.exists_of_mapM hgeometries hg
            exact ih k (by omega) (hitemsFit item hitem) hread
          have hreread := IsRestored.mapM_listToJson hrestored
          have hnames : ["type", "geometries"].Nodup := by decide
          have harray : (Json.array (listToJson geometries)).Fits (k + 1) :=
            .array (IsRestored.fits_listToJson hrestored)
          have hlead : (Json.object [("type", .string "GeometryCollection"),
              ("geometries", .array (listToJson geometries))]).Fits (k + 2) :=
            .object hnames (by simpa using ⟨.string _, harray⟩)
          obtain ⟨hwritten, again, hsame, hextras⟩ :=
            Extras.restores hextras hfits hlead rfl (by decide)
          exact .intro hwritten (read?_object_iff.2 (.collection rfl rfl hreread hextras))
            (.collection (IsRestored.forall₂_same hrestored) hsame)
    | _ => simp [read?] at hread

end Geometry

end FeatureQuery
