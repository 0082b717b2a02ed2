import FeatureQuery.Export.Format
import FeatureQuery.Proofs.Query.Wrapping
import FeatureQuery.Proofs.Record.Rereading

/-!
# Records loaded again

Records that were loaded, written with a feature on each line and loaded again are the same records
(`Record.Same`), and so they are when they are written as one collection, unless that nests too
deeply for the reader (`load_write`). The two texts are read in different ways. A collection is one
document, and its text has the tokens of the object that denotes it (`tokens?_write_geoJson`). Lines
are one document only if there is a single one; two features are none, because a token follows the
first, and so each line is read as a document of its own (`load_write_geoJsonLines`). A line ends
where it was ended, since the text of a feature holds no line feed.

What is asked of the records is that the digits of each double they hold are read back as the double
(`HasRereadDoubles`).
-/

namespace FeatureQuery

/-- A line without line feeds is the first line of a text that goes on behind it. -/
theorem Text.lines_append {cs : List Char} (h : '\n' ∉ cs) (rest : List Char) :
    lines (cs ++ '\n' :: rest) = cs :: lines rest := by
  induction cs with
  | nil => rw [List.nil_append, lines, if_pos rfl]
  | cons c cs ih =>
    rw [List.mem_cons, not_or] at h
    rw [List.cons_append, lines, if_neg (Ne.symm h.1), ih h.2]

namespace Record

/-- The doubles of the record's feature are read back from their digits. -/
def HasRereadDoubles (r : Record) : Prop :=
  ∀ d, .double d ∈ r.toFeature.toJson.numbers → d.IsReread

/-- The characters of the record's feature. -/
def featureChars (r : Record) : List Char := r.toFeature.toJson.chars

theorem load_of_read? {s : String} {document : Document} (h : Document.read? s = some document) :
    load s = ofDocument document := by
  rw [load, h]

theorem load_of_read?_eq_none {s : String} (h : Document.read? s = none) :
    load s = loadLines 1 (Text.lines s.toList) := by
  rw [load, h]

theorem featureChars_eq (r : Record) :
    r.featureChars = '\x7b' :: (Json.memberChars r.featureMembers ++ ['\x7d']) := by
  rw [featureChars, toJson_toFeature, Json.chars]

/-- The text of a feature neither begins nor ends with a blank. -/
theorem trim_featureChars (r : Record) : Text.trim r.featureChars = r.featureChars := by
  rw [featureChars_eq, ← List.cons_append]
  refine Text.trim_eq_self rfl ?_
  rw [List.getLast?_concat]
  rfl

/-- Where a feature follows, there is a token. -/
theorem tokens?_featureChars_ne (r : Record) (rest : List Char) :
    Json.tokens? (r.featureChars ++ rest) ≠ some [] := by
  rw [featureChars_eq, List.cons_append, Json.tokens?_of_read? rfl rfl]
  intro h
  obtain ⟨ts, -, hts⟩ := Option.map_eq_some_iff.1 h
  cases hts

section Feature

variable {r : Record} (h : r.IsKept) (hdoubles : r.HasRereadDoubles)

include h hdoubles

theorem IsKept.isReread : ∀ n ∈ r.toFeature.toJson.numbers, n.IsReread :=
  fun _ => h.fits_toFeature.isReread hdoubles

/-- **The text of a feature is read as a feature**, if only blanks follow. -/
theorem IsKept.read?_featureChars {rest : List Char} (hrest : Json.EndsNumber rest)
    (hblank : Json.tokens? rest = some []) :
    Document.read? (String.ofList (r.featureChars ++ rest)) =
      some (.feature r.reread.toFeature) := by
  have hread := Json.read?_chars h.fits_toFeature (h.isReread hdoubles) hrest hblank
  rw [Document.read?, featureChars, hread, Option.bind_some, h.ofJson?_toFeature]

/-- A line with a feature holds its record. -/
theorem IsKept.loadLine_featureChars (number : Nat) :
    loadLine number r.featureChars = .ok [r.reread] := by
  have hread := h.read?_featureChars hdoubles .nil Json.tokens?_nil
  rw [List.append_nil] at hread
  have hne : r.featureChars ≠ [] := by
    rw [featureChars_eq]
    exact List.cons_ne_nil _ _
  simp only [loadLine, trim_featureChars, if_neg hne, hread, ofDocument, h.ofFeature_reread]

/-- The text of a feature is no document where another feature follows. -/
theorem IsKept.read?_featureChars_eq_none (next : Record) (rest : List Char) :
    Document.read? (String.ofList (r.featureChars ++ '\n' :: (next.featureChars ++ rest))) =
      none := by
  have hmore : Json.tokens? ('\n' :: (next.featureChars ++ rest)) ≠ some [] := by
    rw [Json.tokens?_cons_space rfl]
    exact tokens?_featureChars_ne next rest
  rw [Document.read?, featureChars, Json.read?_chars_eq_none h.fits_toFeature
    (h.isReread hdoubles) (.cons rfl) hmore]
  rfl

end Feature

/-! ### A feature on each line -/

theorem toList_write_geoJsonLines (records : List Record) :
    (OutputFormat.geoJsonLines.write records).toList =
      records.flatMap fun r => r.featureChars ++ ['\n'] := by
  change (String.join (records.map fun r => r.featureText ++ "\n")).toList = _
  rw [String.toList_join, List.flatMap_map]
  simp only [featureText, Json.text, featureChars, String.toList_append, String.toList_ofList]
  rfl

section Lines

variable {records : List Record} (hkept : ∀ r ∈ records, r.IsKept)
  (hdoubles : ∀ r ∈ records, r.HasRereadDoubles)

include hkept hdoubles

/-- Each line with a feature holds its record, and the end of the last line begins an empty one. -/
theorem loadLines_flatMap (number : Nat) :
    loadLines number (Text.lines (records.flatMap fun r => r.featureChars ++ ['\n'])) =
      .ok (records.map reread) := by
  induction records generalizing number with
  | nil => rfl
  | cons r rest ih =>
    obtain ⟨hr, hrest⟩ := List.forall_mem_cons.1 hkept
    obtain ⟨hdoubles, hothers⟩ := List.forall_mem_cons.1 hdoubles
    have hline : '\n' ∉ r.featureChars :=
      Json.newline_notMem_chars _ (hr.isReread hdoubles)
    rw [List.flatMap_cons, List.append_assoc, List.singleton_append, Text.lines_append hline,
      loadLines, hr.loadLine_featureChars hdoubles, ih hrest hothers]
    rfl

/-- **Records written on lines are loaded again.** No record is an empty text, and one record is a
document by itself; two records and more are no document, and are read line by line. -/
theorem load_write_geoJsonLines :
    load (OutputFormat.geoJsonLines.write records) = .ok (records.map reread) := by
  have hlines := loadLines_flatMap hkept hdoubles 1
  rw [← String.ofList_toList (s := OutputFormat.geoJsonLines.write records),
    toList_write_geoJsonLines]
  match records with
  | [] =>
    have hnone : Json.read? (String.ofList []) = none := by
      rw [Json.read?, String.toList_ofList, Json.tokens?_nil]
      rfl
    exact load_of_read?_eq_none (by rw [Document.read?, List.flatMap_nil, hnone, Option.bind_none])
  | [r] =>
    have hr := hkept r List.mem_cons_self
    have hblank : Json.tokens? ['\n'] = some [] := by
      rw [Json.tokens?_cons_space rfl, Json.tokens?_nil]
    have hread := hr.read?_featureChars (hdoubles r List.mem_cons_self) (.cons rfl) hblank
    rw [List.flatMap_singleton, load_of_read? hread, ofDocument, hr.ofFeature_reread]
    rfl
  | r :: next :: rest =>
    have hr := hkept r List.mem_cons_self
    have hnone := fun rest =>
      hr.read?_featureChars_eq_none (hdoubles r List.mem_cons_self) next rest
    simp only [List.flatMap_cons, List.append_assoc, List.singleton_append] at hlines ⊢
    rw [load_of_read?_eq_none (hnone _), String.toList_ofList, hlines]

end Lines

/-! ### A collection -/

/-- The object that denotes the features of the records as a collection. -/
def collectionJson (records : List Record) : Json :=
  .object [("type", .string "FeatureCollection"),
    ("features", .array (records.map fun r => r.toFeature.toJson))]

open Json (tokens? tokens?_of_read? tokens?_cons_space tokens?_escape)

/-- The tokens before the features of a collection. -/
theorem tokens?_collectionStart (rest : List Char) :
    tokens? ("\x7b\n  \"type\": \"FeatureCollection\",\n  \"features\": [\n".toList ++ rest) =
      (tokens? rest).map ([.openObject, .text "type", .colon, .text "FeatureCollection", .comma,
        .text "features", .colon, .openArray] ++ ·) := by
  change tokens? ('\x7b' :: '\n' :: ' ' :: ' ' :: (Json.escape "type".toList ++ ':' :: ' ' ::
    (Json.escape "FeatureCollection".toList ++ ',' :: '\n' :: ' ' :: ' ' ::
      (Json.escape "features".toList ++ ':' :: ' ' :: '[' :: '\n' :: rest)))) = _
  rw [tokens?_of_read? rfl rfl, tokens?_cons_space rfl, tokens?_cons_space rfl,
    tokens?_cons_space rfl, tokens?_escape, tokens?_of_read? rfl rfl, tokens?_cons_space rfl,
    tokens?_escape, tokens?_of_read? rfl rfl, tokens?_cons_space rfl, tokens?_cons_space rfl,
    tokens?_cons_space rfl, tokens?_escape, tokens?_of_read? rfl rfl, tokens?_cons_space rfl,
    tokens?_of_read? rfl rfl, tokens?_cons_space rfl]
  simp only [Option.map_map]
  rfl

/-- The tokens behind the features of a collection. -/
theorem tokens?_collectionEnd :
    tokens? ['\n', ' ', ' ', ']', '\n', '\x7d', '\n'] = some [.closeArray, .closeObject] := by
  rw [tokens?_cons_space rfl, tokens?_cons_space rfl, tokens?_cons_space rfl,
    tokens?_of_read? rfl rfl, tokens?_cons_space rfl, tokens?_of_read? rfl rfl,
    tokens?_cons_space rfl, Json.tokens?_nil]
  rfl

section Collection

variable {records : List Record} (hkept : ∀ r ∈ records, r.IsKept)

include hkept

/-- The object of a collection fits a limit as far as its depth does. -/
theorem fits_collectionJson : (collectionJson records).Fits (Json.maxNesting + 2) := by
  have hitems : ∀ v ∈ records.map fun r => r.toFeature.toJson, v.Fits Json.maxNesting := by
    simpa using fun r hr => (hkept r hr).fits_toFeature
  have hnames : ["type", "features"].Nodup := by decide
  refine .object hnames ?_
  simp only [List.forall_mem_cons]
  exact ⟨.string _, .array hitems, List.forall_mem_nil _⟩

/-- The features of a collection are read back. -/
theorem ofJson?_collectionJson : Document.ofJson? (collectionJson records) =
    some (.collection (records.map fun r => r.reread.toFeature)) := by
  have hfeatures : Json.listOf? Feature.read? (.array (records.map fun r => r.toFeature.toJson)) =
      some (records.map fun r => r.reread.toFeature) :=
    Json.mapM_map fun r hr => (hkept r hr).read?_toFeature
  simp [Document.ofJson?, collectionJson, Json.members?, Json.string?, Entries.get?, readBbox?,
    hfeatures]

variable (hdoubles : ∀ r ∈ records, r.HasRereadDoubles)

include hdoubles

/-- The tokens of the features, with commas between them. -/
theorem tokens?_featureLines {rest : List Char} (hrest : Json.EndsNumber rest) :
    tokens? ((OutputFormat.featureLines records).toList ++ rest) =
      (tokens? rest).map (Json.itemTokens (records.map fun r => r.toFeature.toJson) ++ ·) := by
  induction records with
  | nil => simp [OutputFormat.featureLines, Json.itemTokens]
  | cons r others ih =>
    obtain ⟨hr, hothers⟩ := List.forall_mem_cons.1 hkept
    obtain ⟨hfirst, hmore⟩ := List.forall_mem_cons.1 hdoubles
    have hreread := hr.isReread hfirst
    cases others with
    | nil =>
      rw [OutputFormat.featureLines, featureText, Json.text, String.toList_ofList,
        Json.tokens?_chars _ hreread hrest]
      rfl
    | cons next others =>
      have hlines : (OutputFormat.featureLines (r :: next :: others)).toList ++ rest =
          r.featureChars ++ ',' :: '\n' ::
            ((OutputFormat.featureLines (next :: others)).toList ++ rest) := by
        simp [OutputFormat.featureLines, featureText, Json.text, featureChars]
      rw [hlines, featureChars, Json.tokens?_chars _ hreread (.cons rfl), tokens?_of_read? rfl rfl,
        tokens?_cons_space rfl, ih hothers hmore]
      simp [Json.itemTokens, Function.comp_def]

/-- The text of a collection has the tokens of the collection. -/
theorem tokens?_write_geoJson : tokens? (OutputFormat.geoJson.write records).toList =
    some (collectionJson records).tokens := by
  have htext : (OutputFormat.geoJson.write records).toList =
      "\x7b\n  \"type\": \"FeatureCollection\",\n  \"features\": [\n".toList ++
        ((OutputFormat.featureLines records).toList ++
          ['\n', ' ', ' ', ']', '\n', '\x7d', '\n']) := by
    change (_ ++ OutputFormat.featureLines records ++ _ : String).toList = _
    rw [String.toList_append, String.toList_append, List.append_assoc]
    rfl
  have hfeatures := tokens?_featureLines hkept hdoubles
    (.cons rfl : Json.EndsNumber ['\n', ' ', ' ', ']', '\n', '\x7d', '\n'])
  rw [htext, tokens?_collectionStart, hfeatures, tokens?_collectionEnd]
  simp [collectionJson, Json.tokens, Json.memberTokens]

/-- **Records written as a collection are loaded again**, if the collection fits the limit. -/
theorem load_write_geoJson
    (hdepth : (collectionJson records).depth ≤ Json.maxNesting) :
    load (OutputFormat.geoJson.write records) = .ok (records.map reread) := by
  have hread := Json.read?_of_tokens? (tokens?_write_geoJson hkept hdoubles)
    ((fits_collectionJson hkept).of_depth_le hdepth)
  have hdocument : Document.read? (OutputFormat.geoJson.write records) =
      some (.collection (records.map fun r => r.reread.toFeature)) := by
    rw [Document.read?, hread, Option.bind_some, ofJson?_collectionJson hkept]
  have hrecords : (records.map fun r => r.reread.toFeature).map ofFeature =
      records.map reread := by
    rw [List.map_map]
    exact List.map_congr_left fun r hr => (hkept r hr).ofFeature_reread
  rw [load_of_read? hdocument, ofDocument, hrecords]

end Collection

/-- **Exporting and loading again loses nothing.** What is loaded from either text are as many
records in the same order, each with the same id, the same attributes in the same order, and the
same geometry but for the order of the members that the format does not name. -/
theorem load_write {content : String} {records : List Record} (hload : load content = .ok records)
    (hdoubles : ∀ r ∈ records, r.HasRereadDoubles) :
    ∃ again, List.Forall₂ Same records again ∧
      load (OutputFormat.geoJsonLines.write records) = .ok again ∧
      ((collectionJson records).depth ≤ Json.maxNesting →
        load (OutputFormat.geoJson.write records) = .ok again) := by
  have hkept := isKept_of_load hload
  have hsame : List.Forall₂ Same records (records.map reread) :=
    List.forall₂_map_right_iff.2 (List.forall₂_same.2 fun r hr => (hkept r hr).same_reread)
  exact ⟨records.map reread, hsame, load_write_geoJsonLines hkept hdoubles,
    load_write_geoJson hkept hdoubles⟩

/-- A feature with a number as its id, with a point of which one number is whole and two members
that change places, and with a line feed, a control character and a list among its properties; and a
feature without anything. -/
theorem load_write_pueblos :
    let point := "\x7b\"type\":\"Point\",\"coordinates\":[-6.29,36],\"datum\":1,\"source\":2\x7d"
    let properties := "\x7b\"n\":\"a\\n\\u0001\",\"b\":[true]\x7d"
    let content := "\x7b\"type\":\"FeatureCollection\",\"features\":[" ++
      "\x7b\"type\":\"Feature\",\"id\":7,\"geometry\":" ++ point ++ ",\"properties\":" ++
      properties ++ "\x7d,\x7b\"type\":\"Feature\",\"geometry\":null,\"properties\":null\x7d]\x7d"
    ∃ records again, records.length = 2 ∧ load content = .ok records ∧
      List.Forall₂ Same records again ∧
      load (OutputFormat.geoJsonLines.write records) = .ok again ∧
      load (OutputFormat.geoJson.write records) = .ok again := by
  intro point properties content
  have hcheck : (load content).toOption.any fun records => records.length = 2 ∧
      (collectionJson records).depth ≤ Json.maxNesting ∧
        ∀ r ∈ records, ∀ n ∈ r.toFeature.toJson.numbers, n.IsReread := by
    decide +kernel
  cases hload : load content with
  | error e =>
    rw [hload] at hcheck
    cases hcheck
  | ok records =>
    rw [hload] at hcheck
    obtain ⟨hlength, hdepth, hnumbers⟩ := of_decide_eq_true hcheck
    obtain ⟨again, hsame, hlines, hcollection⟩ :=
      load_write hload fun r hr d hd => hnumbers r hr _ hd
    exact ⟨records, again, hlength, rfl, hsame, hlines, hcollection hdepth⟩

end Record

end FeatureQuery
