import FeatureQuery.Proofs.Json.Following
import FeatureQuery.Proofs.Outcome
import FeatureQuery.Proofs.Query.Wrapping
import FeatureQuery.Proofs.Record.Reloading
import Mathlib.Data.List.Forall2

/-!
# Records line by line

A text is tried as one document before its lines are. Where every line is blank or holds features by
itself this makes no difference (`load_eq_loadLines`): behind a line that denotes a value a document
may only go on with blanks, and so it has a single line that is not blank, which denotes the same
document. Hence loading lines is loading each of them (`load_ofList`) and putting the records
together, and a text that is no document is refused for the first line that is refused by itself
(`load_lines`).
-/

namespace FeatureQuery

variable {line text : List Char} {ls : List (List Char)} {document : Document}

namespace Text

/-! ### Lines -/

theorem lines_of_notMem {cs : List Char} (h : '\n' ∉ cs) : lines cs = [cs] := by
  induction cs with
  | nil => rfl
  | cons c cs ih =>
    rw [List.mem_cons, not_or] at h
    rw [lines, if_neg (Ne.symm h.1), ih h.2]

/-- A line holds no line feed. -/
theorem newline_notMem_of_mem_lines (h : line ∈ lines text) : '\n' ∉ line := by
  induction text generalizing line with
  | nil =>
    rw [List.mem_singleton.mp h]
    exact List.not_mem_nil
  | cons c cs ih =>
    rw [lines] at h
    split_ifs at h with hc
    · rcases List.mem_cons.mp h with rfl | h
      · exact List.not_mem_nil
      · exact ih h
    · split at h
      · rw [List.mem_singleton.mp h, List.mem_singleton]
        exact Ne.symm hc
      · rename_i first rest heq
        rcases List.mem_cons.mp h with rfl | h
        · have hfirst : '\n' ∉ first := ih (heq ▸ List.mem_cons_self)
          simp [Ne.symm hc, hfirst]
        · exact ih (heq ▸ List.mem_cons_of_mem _ h)

theorem mem_unlines {c : Char} (hline : line ∈ ls) (hc : c ∈ line) : c ∈ unlines ls := by
  induction ls with
  | nil => cases hline
  | cons first rest ih =>
    cases rest with
    | nil =>
      obtain rfl := List.mem_singleton.mp hline
      exact hc
    | cons next rest =>
      rw [unlines, List.mem_append, List.mem_cons]
      rcases List.mem_cons.mp hline with rfl | hline
      · exact .inl hc
      · exact .inr (.inr (ih hline))

/-- The text has the lines, each ended by a line feed, or a carriage return and a line feed, the
last one perhaps not ended. -/
inductive IsJoined : List (List Char) → List Char → Prop where
  /-- No line. -/
  | nil : IsJoined [] []
  /-- A line without a line feed. -/
  | last {line ending : List Char} (hending : ending = [] ∨ ending = ['\r']) :
      IsJoined [line] (line ++ ending)
  /-- A line with a line feed, and the lines behind it. -/
  | cons {line ending : List Char} {ls : List (List Char)} {text : List Char}
      (hending : ending = [] ∨ ending = ['\r']) (joined : IsJoined ls text) :
      IsJoined (line :: ls) (line ++ ending ++ '\n' :: text)

/-! ### Blanks around a line -/

/-- Blanks stand on both sides of the trimmed text. -/
theorem exists_blanks_around (cs : List Char) :
    ∃ lead trail, (∀ c ∈ lead, isBlank c = true) ∧ (∀ c ∈ trail, isBlank c = true) ∧
      cs = lead ++ (trim cs ++ trail) := by
  refine ⟨cs.takeWhile isBlank, ((trimStart cs).reverse.takeWhile isBlank).reverse,
    fun c => List.mem_takeWhile_imp, fun c hc => ?_, ?_⟩
  · exact List.mem_takeWhile_imp (List.mem_reverse.mp hc)
  · rw [trim, trimEnd, ← List.reverse_append, List.takeWhile_append_dropWhile, List.reverse_reverse,
      takeWhile_append_trimStart]

theorem trim_eq_nil_iff {cs : List Char} : trim cs = [] ↔ ∀ c ∈ cs, isBlank c = true := by
  constructor
  · intro h c hc
    obtain ⟨lead, trail, hlead, htrail, heq⟩ := exists_blanks_around cs
    rw [h, List.nil_append] at heq
    rw [heq] at hc
    exact (List.mem_append.mp hc).elim (hlead c) (htrail c)
  · intro h
    rw [trim, trimStart, List.dropWhile_eq_nil_iff.mpr h]
    rfl

end Text

/-! ### Documents with blanks around them -/

theorem Document.read?_of_blanks {lead trail cs : List Char}
    (hlead : ∀ c ∈ lead, Text.isBlank c = true) (htrail : ∀ c ∈ trail, Text.isBlank c = true)
    (h : read? (String.ofList (lead ++ (cs ++ trail))) = some document) :
    read? (String.ofList cs) = some document := by
  obtain ⟨v, hv, hdocument⟩ := Option.bind_eq_some_iff.mp h
  exact Option.bind_eq_some_iff.mpr ⟨v, Json.read?_of_blanks hlead htrail hv, hdocument⟩

theorem Document.read?_trim (h : read? (String.ofList line) = some document) :
    read? (String.ofList (Text.trim line)) = some document := by
  obtain ⟨lead, trail, hlead, htrail, heq⟩ := Text.exists_blanks_around line
  rw [heq] at h
  exact read?_of_blanks hlead htrail h

/-- A text without tokens is no document. -/
theorem Document.trim_ne_nil (h : read? (String.ofList line) = some document) :
    Text.trim line ≠ [] := by
  intro hnil
  have hread := read?_trim h
  rw [hnil, read?, Json.read?_ofList, Json.tokens?_nil] at hread
  cases hread

/-- **A document that begins with a document** is the same one, and only blanks follow. -/
theorem Document.eq_of_read?_append {cs rest : List Char} {other : Document}
    (h : read? (String.ofList cs) = some document) (hrest : Json.EndsNumber rest)
    (hmore : read? (String.ofList (cs ++ rest)) = some other) :
    other = document ∧ rest.all Json.isSpace = true := by
  obtain ⟨v, hv, hdocument⟩ := Option.bind_eq_some_iff.mp h
  rw [read?, Json.read?_append hv hrest] at hmore
  split_ifs at hmore with hspaces
  · rw [Option.bind_some, hdocument] at hmore
    exact ⟨(Option.some.inj hmore).symm, hspaces⟩
  · cases hmore

namespace Record

variable {number : Nat} {records : List Record} {e : LoadError}

/-! ### One line -/

theorem loadLine_congr {other : List Char} (h : Text.trim line = Text.trim other) :
    loadLine number line = loadLine number other := by
  rw [loadLine, loadLine, h]

theorem loadLine_of_blank (h : ∀ c ∈ line, Text.isBlank c = true) :
    loadLine number line = .ok [] := by
  rw [loadLine, if_pos (Text.trim_eq_nil_iff.mpr h)]

theorem loadLine_of_read? (h : Document.read? (String.ofList line) = some document) :
    loadLine number line = ofDocument document := by
  rw [loadLine, if_neg (Document.trim_ne_nil h), Document.read?_trim h]

/-- What a line holds does not depend on its number. -/
theorem loadLine_eq_ok (h : loadLine number line = .ok records) (other : Nat) :
    loadLine other line = .ok records := by
  rw [loadLine] at h ⊢
  split_ifs at h ⊢ with hnil
  · exact h
  · split at h
    · exact h
    · cases h

/-- **Why a line is refused**: it is no document, or a geometry alone. -/
theorem loadLine_eq_error_iff : loadLine number line = .error e ↔
    Text.trim line ≠ [] ∧
      ((∃ g, Document.read? (String.ofList (Text.trim line)) = some (.geometry g)) ∧
          e = .bareGeometry ∨
        Document.read? (String.ofList (Text.trim line)) = none ∧ e = .invalidLine number) := by
  rw [loadLine]
  split_ifs with hnil
  · simp [hnil]
  · cases hread : Document.read? (String.ofList (Text.trim line)) with
    | none => simp [hnil, eq_comm]
    | some document => cases document <;> simp [hnil, ofDocument, eq_comm]

/-- **A line by itself** is loaded as the first line of a text. -/
theorem load_ofList (h : '\n' ∉ line) : load (String.ofList line) = loadLine 1 line := by
  cases hread : Document.read? (String.ofList line) with
  | some document => rw [load_of_read? hread, loadLine_of_read? hread]
  | none =>
    rw [load_of_read?_eq_none hread, String.toList_ofList, Text.lines_of_notMem h, loadLines]
    cases loadLine 1 line with
    | ok records => exact congrArg Except.ok (List.append_nil records)
    | error e => rfl

/-! ### Line after line -/

/-- **Lines are loaded** when each of them is. -/
theorem loadLines_eq_ok_iff : loadLines number ls = .ok records ↔
    ∃ groups, List.Forall₂ (fun line group => loadLine 1 line = .ok group) ls groups ∧
      records = groups.flatten := by
  induction ls generalizing number records with
  | nil =>
    rw [loadLines]
    constructor
    · rintro ⟨⟩
      exact ⟨[], .nil, rfl⟩
    · rintro ⟨groups, hgroups, rfl⟩
      cases hgroups
      rfl
  | cons line rest ih =>
    rw [loadLines, bind_eq_ok_iff]
    constructor
    · rintro ⟨first, hfirst, h⟩
      obtain ⟨others, hothers, ⟨⟩⟩ := bind_eq_ok_iff.mp h
      obtain ⟨groups, hgroups, rfl⟩ := ih.mp hothers
      exact ⟨first :: groups, .cons (loadLine_eq_ok hfirst 1) hgroups, rfl⟩
    · rintro ⟨_, hgroups, rfl⟩
      cases hgroups with
      | @cons _ first _ groups hfirst hgroups =>
        refine ⟨first, loadLine_eq_ok hfirst number, ?_⟩
        exact bind_eq_ok_iff.mpr ⟨groups.flatten, ih.mpr ⟨groups, hgroups, rfl⟩, rfl⟩

/-- **Lines are refused** for the first one that is refused, whatever follows it. -/
theorem loadLines_eq_error {before after : List (List Char)}
    (hbefore : ∀ earlier ∈ before, ∃ records, loadLine 1 earlier = .ok records)
    (hline : loadLine (number + before.length) line = .error e) :
    loadLines number (before ++ line :: after) = .error e := by
  induction before generalizing number with
  | nil =>
    rw [List.nil_append, loadLines]
    rw [List.length_nil, Nat.add_zero] at hline
    rw [hline, error_bind]
  | cons earlier before ih =>
    obtain ⟨⟨records, hrecords⟩, hbefore⟩ := List.forall_mem_cons.mp hbefore
    rw [List.length_cons, Nat.add_comm before.length, ← Nat.add_assoc] at hline
    rw [List.cons_append, loadLines, loadLine_eq_ok hrecords, ok_bind, ih hbefore hline, error_bind]

theorem loadLines_of_blank (h : ∀ line ∈ ls, ∀ c ∈ line, Text.isBlank c = true) :
    loadLines number ls = .ok [] := by
  induction ls generalizing number with
  | nil => rfl
  | cons line rest ih =>
    obtain ⟨hline, hrest⟩ := List.forall_mem_cons.mp h
    rw [loadLines, loadLine_of_blank hline, ih hrest]
    rfl

/-- How lines are ended does not count. -/
theorem loadLines_lines_of_isJoined (h : Text.IsJoined ls text)
    (hlines : ∀ line ∈ ls, '\n' ∉ line) :
    loadLines number (Text.lines text) = loadLines number ls := by
  have hended : ∀ {line ending : List Char}, (ending = [] ∨ ending = ['\r']) → '\n' ∉ line →
      '\n' ∉ line ++ ending ∧ Text.trim (line ++ ending) = Text.trim line := by
    rintro line ending (rfl | rfl) hline
    · rw [List.append_nil]
      exact ⟨hline, rfl⟩
    · exact ⟨by simp [hline], Text.trim_concat_blank rfl line⟩
  induction h generalizing number with
  | nil => rfl
  | last hending =>
    obtain ⟨hline, htrim⟩ := hended hending (hlines _ List.mem_cons_self)
    rw [Text.lines_of_notMem hline, loadLines, loadLine_congr htrim]
    rfl
  | cons hending joined ih =>
    obtain ⟨hline, hrest⟩ := List.forall_mem_cons.mp hlines
    obtain ⟨hline, htrim⟩ := hended hending hline
    rw [Text.lines_append hline, loadLines, loadLines, loadLine_congr htrim, ih hrest]

/-! ### The text as a whole -/

/-- A line that holds features, and begins a document with a blank behind the line, holds what the
document does, and only blanks follow it. -/
theorem ofDocument_of_loadLine {more : List Char} (h : loadLine number line = .ok records)
    (hline : Text.trim line ≠ []) (hmore : ∀ c ∈ more.head?, Text.isBlank c = true)
    (hread : Document.read? (String.ofList (line ++ more)) = some document) :
    ofDocument document = .ok records ∧ more.all Json.isSpace = true := by
  rw [loadLine, if_neg hline] at h
  obtain ⟨lead, trail, hlead, htrail, heq⟩ := Text.exists_blanks_around line
  have hends : Json.EndsNumber (trail ++ more) := by
    cases trail with
    | nil =>
      cases more with
      | nil => exact .nil
      | cons c more => exact .of_isBlank (hmore c rfl)
    | cons c trail => exact .of_isBlank (htrail c List.mem_cons_self)
  have hwhole : Document.read? (String.ofList (Text.trim line ++ (trail ++ more))) =
      some document := by
    rw [heq] at hread
    refine Document.read?_of_blanks hlead (List.forall_mem_nil _) ?_
    simpa using hread
  split at h
  · rename_i body hbody
    obtain ⟨rfl, hspaces⟩ := Document.eq_of_read?_append hbody hends hwhole
    rw [List.all_append, Bool.and_eq_true] at hspaces
    exact ⟨h, hspaces.2⟩
  · cases h

/-- A document of which every line is blank or holds features holds what its lines do: it has one
line that is not blank. -/
theorem ofDocument_of_loadLines (h : loadLines number ls = .ok records)
    (hread : Document.read? (String.ofList (Text.unlines ls)) = some document) :
    ofDocument document = .ok records := by
  induction ls generalizing number records with
  | nil => exact absurd rfl (Document.trim_ne_nil hread)
  | cons line rest ih =>
    obtain ⟨first, hfirst, h⟩ := bind_eq_ok_iff.mp h
    obtain ⟨others, hothers, ⟨⟩⟩ := bind_eq_ok_iff.mp h
    cases rest with
    | nil =>
      rw [Text.unlines] at hread
      rw [loadLine_of_read? hread] at hfirst
      cases hothers
      rw [hfirst, List.append_nil]
    | cons next rest =>
      rw [Text.unlines] at hread
      by_cases hblank : Text.trim line = []
      · have hlead : ∀ c ∈ line ++ ['\n'], Text.isBlank c = true := by
          simpa [or_imp, forall_and] using ⟨Text.trim_eq_nil_iff.mp hblank, rfl⟩
        rw [loadLine, if_pos hblank] at hfirst
        cases hfirst
        refine ih hothers (Document.read?_of_blanks hlead (List.forall_mem_nil _) ?_)
        simpa using hread
      · obtain ⟨hdocument, hspaces⟩ := ofDocument_of_loadLine hfirst hblank
          (by simp [Text.isBlank]) hread
        have hrest : ∀ line ∈ next :: rest, ∀ c ∈ line, Text.isBlank c = true := by
          intro line hline c hc
          have hmem := List.mem_cons_of_mem '\n' (Text.mem_unlines hline hc)
          exact Json.isBlank_of_isSpace (List.all_eq_true.mp hspaces c hmem)
        rw [loadLines_of_blank hrest] at hothers
        cases hothers
        rw [hdocument, List.append_nil]

/-- **The text as a whole** makes no difference where its lines can be loaded. -/
theorem load_eq_loadLines (h : loadLines 1 (Text.lines text) = .ok records) :
    load (String.ofList text) = .ok records := by
  cases hread : Document.read? (String.ofList text) with
  | some document =>
    rw [load_of_read? hread]
    rw [← Text.unlines_lines text] at hread
    exact ofDocument_of_loadLines h hread
  | none => rwa [load_of_read?_eq_none hread, String.toList_ofList]

/-- The line is not blank, and holds no features by itself. -/
def IsRefused (line : List Char) : Prop :=
  line.all Text.isBlank = false ∧ ∀ records, load (String.ofList line) ≠ .ok records

/-- The line is a geometry without a feature. -/
def IsBareGeometry (line : List Char) : Prop :=
  ∃ g, Document.read? (String.ofList (Text.trim line)) = some (.geometry g)

/-- A line that is not refused by itself is loaded among others. -/
theorem not_isRefused_iff (hline : '\n' ∉ line) :
    ¬ IsRefused line ↔ ∃ records, loadLine 1 line = .ok records := by
  rw [IsRefused, load_ofList hline]
  constructor
  · intro h
    by_cases hblank : line.all Text.isBlank = true
    · exact ⟨[], loadLine_of_blank (List.all_eq_true.mp hblank)⟩
    · by_contra hnone
      exact h ⟨by simpa using hblank, fun records hload => hnone ⟨records, hload⟩⟩
  · rintro ⟨records, hload⟩ ⟨-, hnone⟩
    exact hnone records hload

/-- Where a line is refused by itself, the text has no records unless it is a document. -/
theorem exists_error_of_isRefused {content : String} (hcontent : Document.read? content = none)
    (hrefused : ∃ line ∈ Text.lines content.toList, IsRefused line) :
    ∃ e, load content = .error e := by
  cases hload : load content with
  | error e => exact ⟨e, rfl⟩
  | ok records =>
    rw [load_of_read?_eq_none hcontent] at hload
    obtain ⟨groups, hgroups, -⟩ := loadLines_eq_ok_iff.mp hload
    obtain ⟨line, hline, hrefused⟩ := hrefused
    obtain ⟨i, hi, rfl⟩ := List.mem_iff_getElem.mp hline
    have hgroup := hgroups.get hi (hgroups.length_eq ▸ hi)
    have hfeed := Text.newline_notMem_of_mem_lines hline
    exact absurd hrefused ((not_isRefused_iff hfeed).mpr ⟨_, hgroup⟩)

/-- **A text that is no document** is refused for its first line that is refused by itself. -/
theorem exists_loadLine_of_isRefused {content : String} {before after : List (List Char)}
    (hcontent : Document.read? content = none)
    (hsplit : Text.lines content.toList = before ++ line :: after)
    (hbefore : ∀ earlier ∈ before, ¬ IsRefused earlier) (hline : IsRefused line) :
    ∃ e, loadLine (before.length + 1) line = .error e ∧ load content = .error e := by
  have hfeed : ∀ {other}, other ∈ before ++ line :: after → '\n' ∉ other := by
    rw [← hsplit]
    exact Text.newline_notMem_of_mem_lines
  cases herror : loadLine (before.length + 1) line with
  | ok records =>
    have hloaded : ∃ records, loadLine 1 line = .ok records := ⟨records, loadLine_eq_ok herror 1⟩
    exact absurd hline ((not_isRefused_iff (hfeed (by simp))).mpr hloaded)
  | error e =>
    refine ⟨e, rfl, ?_⟩
    rw [load_of_read?_eq_none hcontent, hsplit]
    refine loadLines_eq_error (fun earlier h => ?_) (by rw [Nat.add_comm, herror])
    exact (not_isRefused_iff (hfeed (List.mem_append_left _ h))).mp (hbefore earlier h)

/-- **Loading line by line**: lines that are blank or hold features hold them together, in order,
and a text that is no document as a whole is refused with the number of its first line that is
refused by itself, unless that line is a geometry alone. -/
theorem load_lines :
    (∀ (ls : List (List Char)) (groups : List (List Record)) (text : List Char),
      List.Forall₂ (fun line records => '\n' ∉ line ∧
        (line.all Text.isBlank = true ∧ records = [] ∨
          load (String.ofList line) = .ok records)) ls groups →
      Text.IsJoined ls text → load (String.ofList text) = .ok groups.flatten) ∧
    ∀ content : String, Document.read? content = none →
      (∃ line ∈ Text.lines content.toList, IsRefused line) →
      (∃ e, load content = .error e) ∧
      ∀ before line after, Text.lines content.toList = before ++ line :: after →
        (∀ earlier ∈ before, ¬ IsRefused earlier) → IsRefused line →
        (IsBareGeometry line → (load content).mapError LoadError.message =
          .error "Input: Bare geometries carry no attributes; expected features") ∧
        (¬ IsBareGeometry line → (load content).mapError LoadError.message =
          .error ("Input: Invalid GeoJSON on line " ++ Text.ofNat (before.length + 1))) := by
  refine ⟨fun ls groups text hlines joined => ?_, fun content hcontent hrefused => ?_⟩
  · have hfeed : ∀ line ∈ ls, '\n' ∉ line := ((List.forall₂_and_left _ _).mp hlines).1
    have hloaded : List.Forall₂ (fun line group => loadLine 1 line = .ok group) ls groups := by
      refine hlines.imp fun line records ⟨hline, h⟩ => ?_
      rcases h with ⟨hblank, rfl⟩ | h
      · exact loadLine_of_blank (List.all_eq_true.mp hblank)
      · rwa [load_ofList hline] at h
    refine load_eq_loadLines ?_
    rw [loadLines_lines_of_isJoined joined hfeed]
    exact loadLines_eq_ok_iff.mpr ⟨groups, hloaded, rfl⟩
  · refine ⟨exists_error_of_isRefused hcontent hrefused,
      fun before line after hsplit hbefore hline => ?_⟩
    obtain ⟨e, herror, hload⟩ := exists_loadLine_of_isRefused hcontent hsplit hbefore hline
    rw [hload]
    obtain ⟨-, ⟨hbare, rfl⟩ | ⟨hnone, rfl⟩⟩ := loadLine_eq_error_iff.mp herror
    · exact ⟨fun _ => rfl, fun hnot => absurd hbare hnot⟩
    · refine ⟨fun ⟨g, hg⟩ => ?_, fun _ => rfl⟩
      rw [hnone] at hg
      cases hg

/-- A feature, a blank line with a no-break space and a collection, with different ends of lines;
the feature and the blank line before a list, which is no document; and the feature before a
geometry and the list. -/
theorem load_lines_pueblos :
    let feature := "\x7b\"type\":\"Feature\",\"geometry\":null\x7d"
    let collection := "\x7b\"type\":\"FeatureCollection\",\"features\":[" ++ feature ++ "]\x7d"
    let blank := "\u00a0 "
    let array := "[" ++ feature ++ "]"
    let geometry := "\x7b\"type\":\"GeometryCollection\",\"geometries\":[]\x7d"
    (∃ one two : List Record, one.length = 1 ∧ two.length = 1 ∧ load feature = .ok one ∧
      load collection = .ok two ∧
      load (feature ++ "\r\n" ++ blank ++ "\n" ++ collection ++ "\r\n") = .ok (one ++ two)) ∧
    (load (feature ++ "\n" ++ blank ++ "\n" ++ array ++ "\n" ++ feature)).mapError
      LoadError.message = .error "Input: Invalid GeoJSON on line 3" ∧
    (load (feature ++ "\n" ++ geometry ++ "\n" ++ array)).mapError LoadError.message =
      .error "Input: Bare geometries carry no attributes; expected features" := by
  intro feature collection blank array geometry
  have hlength : ∀ {s : String}, (load s).toOption.any (·.length = 1) = true →
      ∃ records, records.length = 1 ∧ load s = .ok records := by
    intro s h
    cases hload : load s with
    | error e => simp [hload, Except.toOption] at h
    | ok records => exact ⟨records, by simpa [hload, Except.toOption] using h, rfl⟩
  obtain ⟨one, hone, hfeature⟩ := hlength (s := feature) (by decide +kernel)
  obtain ⟨two, htwo, hcollection⟩ := hlength (s := collection) (by decide +kernel)
  have hkept : ¬ IsRefused feature.toList := by
    intro h
    refine h.2 one ?_
    rw [String.ofList_toList]
    exact hfeature
  have hrefused : ∀ {line}, line.all Text.isBlank = false →
      (load (String.ofList line)).toOption.isNone = true → IsRefused line := by
    intro line hblank hnone
    refine ⟨hblank, fun records h => ?_⟩
    rw [h] at hnone
    cases hnone
  have harray : IsRefused array.toList := hrefused (by decide +kernel) (by decide +kernel)
  have hgeometry : IsRefused geometry.toList := hrefused (by decide +kernel) (by decide +kernel)
  refine ⟨⟨one, two, hone, htwo, hfeature, hcollection, ?_⟩, ?_, ?_⟩
  · have htext : (feature ++ "\r\n" ++ blank ++ "\n" ++ collection ++ "\r\n").toList =
        feature.toList ++ ['\r'] ++ '\n' :: (blank.toList ++ [] ++ '\n' ::
          (collection.toList ++ ['\r'] ++ '\n' :: [])) := by decide +kernel
    have hrecords : one ++ two = [one, [], two].flatten := by simp
    rw [← String.ofList_toList (s := feature ++ "\r\n" ++ _ ++ _ ++ _ ++ _), htext, hrecords]
    refine load_lines.1 [feature.toList, blank.toList, collection.toList] _ _ ?_ ?_
    · refine .cons ⟨by decide +kernel, .inr ?_⟩ (.cons ⟨by decide, .inl ⟨by decide, rfl⟩⟩
        (.cons ⟨by decide +kernel, .inr ?_⟩ .nil))
      · rw [String.ofList_toList]
        exact hfeature
      · rw [String.ofList_toList]
        exact hcollection
    · exact .cons (.inr rfl) (.cons (.inl rfl) (.cons (.inr rfl) .nil))
  · have hread : (Document.read? (feature ++ "\n" ++ blank ++ "\n" ++ array ++ "\n" ++
        feature)).isNone = true := by decide +kernel
    have hlines : Text.lines (feature ++ "\n" ++ blank ++ "\n" ++ array ++ "\n" ++
        feature).toList =
          [feature.toList, blank.toList] ++ array.toList :: [feature.toList] := by decide +kernel
    have hmessage : "Input: Invalid GeoJSON on line 3" =
        "Input: Invalid GeoJSON on line " ++ Text.ofNat 3 := by decide +kernel
    have hbare : ¬ IsBareGeometry array.toList := by
      rintro ⟨g, hg⟩
      have hnone : (Document.read? (String.ofList (Text.trim array.toList))).isNone = true := by
        decide +kernel
      rw [hg] at hnone
      cases hnone
    rw [hmessage]
    refine ((load_lines.2 _ (Option.isNone_iff_eq_none.mp hread) ⟨_, ?_, harray⟩).2
      [feature.toList, blank.toList] _ [feature.toList] hlines ?_ harray).2 hbare
    · rw [hlines]
      simp
    · simp only [List.forall_mem_cons]
      exact ⟨hkept, fun h => absurd h.1 (by decide), List.forall_mem_nil _⟩
  · have hread : (Document.read? (feature ++ "\n" ++ geometry ++ "\n" ++ array)).isNone = true := by
      decide +kernel
    have hlines : Text.lines (feature ++ "\n" ++ geometry ++ "\n" ++ array).toList =
        [feature.toList] ++ geometry.toList :: [array.toList] := by decide +kernel
    have hbare : IsBareGeometry geometry.toList := by
      have hcheck : (Document.read? (String.ofList (Text.trim geometry.toList))).any
          (fun | .geometry _ => true | _ => false) = true := by decide +kernel
      cases hdocument : Document.read? (String.ofList (Text.trim geometry.toList)) with
      | none =>
        rw [hdocument] at hcheck
        cases hcheck
      | some document =>
        rw [hdocument] at hcheck
        cases document with
        | geometry g => exact ⟨g, hdocument⟩
        | feature _ | collection _ => cases hcheck
    refine ((load_lines.2 _ (Option.isNone_iff_eq_none.mp hread) ⟨_, ?_, hgeometry⟩).2
      [feature.toList] _ [array.toList] hlines ?_ hgeometry).1 hbare
    · rw [hlines]
      simp
    · exact List.forall_mem_singleton.mpr hkept

end Record

end FeatureQuery
