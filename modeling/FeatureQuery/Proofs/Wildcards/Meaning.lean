import FeatureQuery.Proofs.Predicate.Patterns
import FeatureQuery.Proofs.Wildcards.Occurrences
import FeatureQuery.Proofs.Wildcards.Translation

/-!
# What display wildcards mean

A pattern is displayed with one character for each of its items: `%` for any run of characters, `_`
for any one, and every other character for itself (`displayItem`). The translation writes it
character by character, and the pattern is read back item by item: the point that stands for `_` and
a star after it that stands for itself become one item, which stands for any run (`fusedItems`).

A pattern without points means after its translation what it means as it is displayed if no star
directly follows an underscore in it, and only then: such a star is lost, and the character of the
underscore with it, so that shorter texts match (`toPattern_meaning`).
-/

namespace FeatureQuery

/-! ### The shortest texts -/

namespace LikePattern

/-- How many characters a text must have at least to be cut for the items. -/
def needed (items : List LikeItem) : Nat := items.countP (· ≠ .anyRun)

@[simp] theorem needed_anyRun (items : List LikeItem) :
    needed (.anyRun :: items) = needed items := by
  simp [needed]

@[simp] theorem needed_anyChar (items : List LikeItem) :
    needed (.anyChar :: items) = needed items + 1 := by
  simp [needed]

@[simp] theorem needed_char (c : Char) (items : List LikeItem) :
    needed (.char c :: items) = needed items + 1 := by
  simp [needed]

/-- No shorter text can be cut. -/
theorem Cuts.needed_le {items : List LikeItem} {text : List Char} (h : Cuts items text) :
    needed items ≤ text.length := by
  induction items generalizing text with
  | nil => simp [needed]
  | cons item items ih =>
    obtain ⟨piece, rest, hpiece, hrest, rfl⟩ := cuts_cons_iff.mp h
    have hle := ih hrest
    rw [List.length_append]
    cases item with
    | anyRun =>
      rw [needed_anyRun]
      omega
    | anyChar =>
      obtain ⟨c, rfl⟩ := hpiece
      rw [needed_anyChar, List.length_singleton]
      omega
    | char c =>
      obtain rfl : piece = [c] := hpiece
      rw [needed_char, List.length_singleton]
      omega

/-- A text of just the needed length can be cut. -/
theorem exists_cuts_needed (items : List LikeItem) :
    ∃ text, Cuts items text ∧ text.length = needed items := by
  induction items with
  | nil => exact ⟨[], cuts_nil_iff.mpr rfl, rfl⟩
  | cons item items ih =>
    obtain ⟨text, hcuts, hlength⟩ := ih
    cases item with
    | anyRun => exact ⟨text, cuts_anyRun_iff.mpr (.inl hcuts), by simpa using hlength⟩
    | anyChar => exact ⟨' ' :: text, cuts_anyChar_iff.mpr ⟨' ', text, rfl, hcuts⟩, by simpa⟩
    | char c => exact ⟨c :: text, cuts_char_iff.mpr ⟨text, rfl, hcuts⟩, by simpa⟩

end LikePattern

namespace Wildcards

open LikePattern

/-! ### The items of a displayed pattern -/

/-- What a character of a displayed pattern stands for. -/
def displayItem (c : Char) : LikeItem :=
  if c = '%' then .anyRun else if c = '_' then .anyChar else .char c

/-- How a displayed pattern without points is read when it has been translated. -/
def fusedItems : List Char → List LikeItem
  | [] => []
  | '_' :: '*' :: cs => .anyRun :: fusedItems cs
  | c :: cs => displayItem c :: fusedItems cs

variable {cs : List Char}

/-- Only a star is translated to what begins with a star. -/
theorem head?_toPatternOperand (h : (toPatternOperand cs).head? = some '*') :
    cs.head? = some '*' := by
  cases cs with
  | nil => simp [toPatternOperand] at h
  | cons c cs =>
    rw [toPatternOperand_cons] at h
    split_ifs at h <;> simp_all

/-- **A translated pattern** is read as the items of the displayed one, except where an underscore
and a star become one item. -/
theorem spells_toPatternOperand (h : '.' ∉ cs) : Spells (toPatternOperand cs) (fusedItems cs) := by
  fun_induction fusedItems cs with
  | case1 => exact .nil
  | case2 cs ih =>
    simp only [List.mem_cons, not_or] at h
    exact .anyRun (ih h.2.2)
  | case3 c cs hfuse ih =>
    rw [List.mem_cons, not_or] at h
    have hrest := ih h.2
    rw [toPatternOperand_cons, displayItem]
    split_ifs with hany hone
    · exact .anyRun hrest
    · refine .anyChar (fun hstar => ?_) hrest
      obtain ⟨tail, htail⟩ := List.head?_eq_some_iff.mp (head?_toPatternOperand hstar)
      exact hfuse tail hone htail
    · exact .char (Ne.symm h.1) hrest

/-- Without a star directly after an underscore the items are those displayed. -/
theorem fusedItems_eq_map (h : ¬ ['_', '*'] <:+: cs) : fusedItems cs = cs.map displayItem := by
  fun_induction fusedItems cs with
  | case1 => rfl
  | case2 cs ih => exact absurd ⟨[], cs, rfl⟩ h
  | case3 c cs hfuse ih =>
    rw [List.infix_cons_iff, not_or] at h
    rw [List.map_cons, ih h.2]

/-- An underscore and a star stand for two characters as they are displayed. -/
theorem needed_underscore_star (cs : List Char) :
    needed (('_' :: '*' :: cs).map displayItem) = needed (cs.map displayItem) + 2 := by
  have hone : displayItem '_' = .anyChar := rfl
  have hstar : displayItem '*' = .char '*' := rfl
  rw [List.map_cons, List.map_cons, hone, hstar, needed_anyChar, needed_char]

theorem needed_fusedItems_le (cs : List Char) :
    needed (fusedItems cs) ≤ needed (cs.map displayItem) := by
  fun_induction fusedItems cs with
  | case1 => rfl
  | case2 cs ih =>
    rw [needed_underscore_star, needed_anyRun]
    omega
  | case3 c cs hfuse ih =>
    rw [List.map_cons]
    cases displayItem c <;> simpa using ih

/-- With a star directly after an underscore, shorter texts can be cut than as it is displayed. -/
theorem needed_fusedItems_lt (h : ['_', '*'] <:+: cs) :
    needed (fusedItems cs) < needed (cs.map displayItem) := by
  fun_induction fusedItems cs with
  | case1 => simp at h
  | case2 cs ih =>
    have hle := needed_fusedItems_le cs
    rw [needed_underscore_star, needed_anyRun]
    omega
  | case3 c cs hfuse ih =>
    have hrest : ['_', '*'] <:+: cs := by
      rcases List.infix_cons_iff.mp h with ⟨tail, htail⟩ | hrest
      · -- such a text is the case before
        obtain ⟨rfl, rfl⟩ := List.cons.inj htail
        exact (hfuse tail rfl rfl).elim
      · exact hrest
    have hlt := ih hrest
    rw [List.map_cons]
    cases displayItem c <;> simpa using hlt

/-- **Display wildcards mean what they are shown for** unless a star directly follows an underscore.
-/
theorem isMatch_toPatternOperand_iff (h : '.' ∉ cs) :
    (∀ text : String, (ofString (String.ofList (toPatternOperand cs))).isMatch text = true ↔
      Cuts (cs.map displayItem) text.toList) ↔ ¬ ['_', '*'] <:+: cs := by
  have hitems : readItems (toPatternOperand cs) = fusedItems cs :=
    (spells_toPatternOperand h).eq_readItems.symm
  have hmatch : ∀ text : String,
      (ofString (String.ofList (toPatternOperand cs))).isMatch text = true ↔
        Cuts (fusedItems cs) text.toList := by
    intro text
    rw [← verdict_iff, ← hitems, verdict, isMatch, ofString, String.toList_ofList]
  simp only [hmatch]
  constructor
  · intro hall hinfix
    -- the shortest text for the translated pattern is too short for the displayed one
    obtain ⟨text, hcuts, hlength⟩ := exists_cuts_needed (fusedItems cs)
    have hdisplayed := (hall (String.ofList text)).mp (by rwa [String.toList_ofList])
    have hle := hdisplayed.needed_le
    have hlt := needed_fusedItems_lt hinfix
    rw [String.toList_ofList] at hle
    omega
  · intro hinfix text
    rw [fusedItems_eq_map hinfix]

/-! ### In a query -/

/-- A quoted text is an operand as a whole. -/
theorem splitOperand_quote (cs : List Char) :
    splitOperand (Text.quote cs) = (Text.quote cs, []) := by
  have hclose : Text.closeLiteral (Text.double cs ++ ['\'']) = some (Text.double cs, []) :=
    Text.closeLiteral_of_literalBody (Text.literalBody_double cs) (by simp)
  simp [Text.quote, splitOperand, hclose]

theorem toPatternOperand_double (cs : List Char) :
    toPatternOperand (Text.double cs) = Text.double (toPatternOperand cs) := by
  induction cs with
  | nil => rfl
  | cons c cs ih =>
    by_cases hc : c = '\''
    · subst hc
      simp [Text.double, toPatternOperand_cons, ih]
    · rw [Text.double, if_neg hc, toPatternOperand_cons, toPatternOperand_cons, ih]
      split_ifs <;> simp [Text.double, hc]

theorem toPatternOperand_quote (cs : List Char) :
    toPatternOperand (Text.quote cs) = Text.quote (toPatternOperand cs) := by
  rw [Text.quote, toPatternOperand_cons, toPatternOperand_append, toPatternOperand_double]
  rfl

/-- **In a match of quoted texts** the pattern is translated as it is without the quotes. -/
theorem toPattern_like_quoted (field pattern : String) :
    toPattern (quoted field ++ " like " ++ quoted pattern) =
      quoted field ++ " like " ++ quoted (String.ofList (toPatternOperand pattern.toList)) := by
  have hblank : Text.isBlank ' ' = true := rfl
  have htext : ∀ value : String, (quoted field ++ " like " ++ quoted value).toList =
      Text.quote field.toList ++ [' '] ++
        (Operator.like.text.toList ++ ' ' :: Text.quote value.toList) := by
    intro value
    simp [Operator.text]
  have splits := (isSelfContained_quoted field).splits (isSelfContained_quoted pattern) .like
  rw [toList_quoted, toList_quoted] at splits
  have hfield : splitKeyword? none .outside (Text.quote field.toList ++ [' ']) = none := by
    have hquote := passesOver_of_balanced (balanced_quote field.toList)
      (splitKeyword?_quote field.toList) (apart_cons_blank hblank _ [])
    exact hquote.eq_none_iff.mpr ((passesOver_blank hblank []).eq_none_iff.mpr rfl)
  have hletter : (' ' :: Text.quote pattern.toList).head?.any Char.isAlpha = false := rfl
  have hfound := splitKeyword?_like splits.balanced_before hfield splits.apart_before hletter
  have htake : (' ' :: Text.quote pattern.toList).takeWhile Text.isBlank = [' '] := by
    rw [List.takeWhile_cons, if_pos hblank]
    rfl
  have hstart : Text.trimStart (' ' :: Text.quote pattern.toList) =
      Text.quote pattern.toList := by
    rw [Text.trimStart, List.dropWhile_cons, if_pos hblank]
    rfl
  have hnil : mapOperands toPatternOperand [] = [] := mapOperands_of_none rfl
  rw [toPattern, htext, mapOperands_of_some hfound, htake, hstart, splitOperand_quote,
    toPatternOperand_quote, hnil, ← String.toList_inj, String.toList_ofList, htext,
    String.toList_ofList]
  simp

/-- **The meaning of a translated pattern.** In a query the pattern of a match is translated in its
place, whatever characters it holds. If it holds no point, the translated pattern matches the texts
that can be cut for the displayed wildcards, and no others, if and only if no star directly follows
an underscore. -/
theorem toPattern_meaning (pattern : String) (h : '.' ∉ pattern.toList) :
    let translated := String.ofList (toPatternOperand pattern.toList)
    (∀ field : String, toPattern (quoted field ++ " like " ++ quoted pattern) =
      quoted field ++ " like " ++ quoted translated) ∧
    ((∀ text : String, (ofString translated).isMatch text = true ↔
      Cuts (pattern.toList.map displayItem) text.toList) ↔ ¬ ['_', '*'] <:+: pattern.toList) :=
  ⟨fun field => toPattern_like_quoted field pattern, isMatch_toPatternOperand_iff h⟩

/-- A star that does not follow an underscore stands for itself. -/
theorem toPattern_meaning_star :
    '.' ∉ "*_d%".toList ∧ ∀ text : String, (ofString "*.d.*").isMatch text = true ↔
      Cuts [.char '*', .anyChar, .char 'd', .anyRun] text.toList := by
  have hpoint : '.' ∉ "*_d%".toList := by decide
  have hinfix : ¬ ['_', '*'] <:+: "*_d%".toList := by decide
  exact ⟨hpoint, (toPattern_meaning "*_d%" hpoint).2.mpr hinfix⟩

/-- A star after an underscore is lost: the translated pattern matches every text. -/
theorem toPattern_star_after_underscore :
    toPattern "nombre like _*" = "nombre like .*" ∧
      (ofString ".*").isMatch "Cadiz" = true ∧
      ¬ Cuts ("_*".toList.map displayItem) "Cadiz".toList := by
  refine ⟨by decide +kernel, by decide, ?_⟩
  rw [← verdict_iff]
  decide

end Wildcards

end FeatureQuery
