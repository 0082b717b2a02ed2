import FeatureQuery.Proofs.Query.Replacing
import FeatureQuery.Proofs.Query.Written
import FeatureQuery.Proofs.Wildcards.Operands

/-!
# Translating patterns in a query

The patterns of a query are changed in its text, before it is read. `Expr.mapPatterns` changes them
in the tree. The two agree if the search for `like` takes the patterns that the reader takes: every
operand that it takes stands on its own, before the change and after it (`StandsAlone`), no other
operand holds a `like`, and no quote follows a word directly (`parse_toPattern`). A quote that
follows an underscore is an apostrophe, and opens a literal when the underscore has become a point
(`toPattern_apostrophe`).

The proof goes along the way in which the query is written (`ChangesQuery`): what is changed takes
the place of what was there before (`Replaces`), so that the text still splits where it did.
-/

namespace FeatureQuery

namespace Expr

mutual

/-- The tree with all its patterns changed. -/
def mapPatterns (change : List Char → List Char) : Expr → Expr
  | .compare op field value => .compare op field value
  | .like field pattern => .like field (String.ofList (change pattern.toList))
  | .not operand => .not (mapPatterns change operand)
  | .join connective operands => .join connective (mapPatternsOfAll change operands)

/-- The trees of a list with all their patterns changed. -/
def mapPatternsOfAll (change : List Char → List Char) : List Expr → List Expr
  | [] => []
  | e :: es => mapPatterns change e :: mapPatternsOfAll change es

end

mutual

/-- A tree is as deep with its patterns changed. -/
theorem depth_mapPatterns (change : List Char → List Char) :
    ∀ e : Expr, (e.mapPatterns change).depth = e.depth
  | .compare .. => rfl
  | .like .. => rfl
  | .not operand => by simp [mapPatterns, depth, depth_mapPatterns change operand]
  | .join _ operands => by simp [mapPatterns, depth, depth_mapPatternsOfAll change operands]

theorem depth_mapPatternsOfAll (change : List Char → List Char) :
    ∀ es : List Expr, depthOfAll (mapPatternsOfAll change es) = depthOfAll es
  | [] => rfl
  | e :: es => by
    simp [mapPatternsOfAll, depthOfAll, depth_mapPatterns change e,
      depth_mapPatternsOfAll change es]

end

end Expr

namespace Wildcards

/-! ### The operands of the search -/

/-- The operands that the search takes, each with what follows it. -/
def operands (cs : List Char) : List (List Char × List Char) :=
  match _h : splitKeyword? none .outside cs with
  | none => []
  | some (_, rest) =>
    let split := splitOperand (Text.trimStart rest)
    split :: operands split.2
termination_by cs.length
decreasing_by
  have h1 := length_lt_of_splitKeyword? _h
  have h2 := congrArg List.length (splitOperand_append (Text.trimStart rest))
  have h3 := Text.length_trimStart_le rest
  simp only [List.length_append] at h2
  omega

theorem operands_of_none {cs : List Char} (h : splitKeyword? none .outside cs = none) :
    operands cs = [] := by
  rw [operands]
  split
  · rfl
  · simp_all

theorem operands_of_some {cs before rest : List Char}
    (h : splitKeyword? none .outside cs = some (before, rest)) :
    operands cs = splitOperand (Text.trimStart rest) ::
      operands (splitOperand (Text.trimStart rest)).2 := by
  rw [operands]
  split
  · simp_all
  · rename_i heq
    rw [h] at heq
    cases heq
    rfl

/-- What is passed over holds no operand. -/
theorem PassesOver.operands_eq {cs ds : List Char} (h : PassesOver cs ds) :
    operands (cs ++ ds) = operands ds := by
  rw [PassesOver] at h
  cases hfind : splitKeyword? none .outside ds with
  | none => rw [operands_of_none hfind, operands_of_none (by rw [h, hfind]; rfl)]
  | some found =>
    obtain ⟨before, rest⟩ := found
    rw [hfind, Option.map_some] at h
    rw [operands_of_some hfind, operands_of_some h]

/-- An operand that the search takes is an operand by itself, before the change and after it, and
nothing that could belong to it follows. -/
structure StandsAlone (change : List Char → List Char) (operand : List Char × List Char) :
    Prop where
  before : IsSelfContained (String.ofList operand.1)
  after : IsSelfContained (String.ofList (change operand.1))
  ends : endsCondition operand.2 = true

instance (change : List Char → List Char) (operand : List Char × List Char) :
    Decidable (StandsAlone change operand) :=
  decidable_of_iff (IsSelfContained (String.ofList operand.1) ∧
    IsSelfContained (String.ofList (change operand.1)) ∧ endsCondition operand.2 = true)
    ⟨fun h => ⟨h.1, h.2.1, h.2.2⟩, fun h => ⟨h.1, h.2, h.3⟩⟩

/-- A change that does not touch the characters at the ends, as the text beside them sees it. -/
structure KeepsEdges (change : List Char → List Char) : Prop where
  first : ∀ cs, (change cs).head?.map edge = cs.head?.map edge
  last : ∀ cs, (change cs).getLast?.map edge = cs.getLast?.map edge

/-! ### Changing a pattern -/

variable {change : List Char → List Char}

/-- The search finds the pattern in the text after `like`, whatever follows, and changes it in its
place. -/
def ChangesPattern (change : List Char → List Char) (ds : List Char) : Prop :=
  Balanced ds → IsOperand (stripWrapping ds) → ∀ ⦃tail o rest : List Char⦄, Follows ds tail →
    splitOperand (Text.trimStart (ds ++ tail)) = (o, rest) → StandsAlone change (o, rest) →
    ∃ ds', (ds ++ tail).takeWhile Text.isBlank ++ change o ++ mapOperands change rest =
        ds' ++ mapOperands change tail ∧ operands rest = operands tail ∧
      stripWrapping ds = o ∧ stripWrapping ds' = change o ∧ Replaces ds ds'

/-- **A pattern without blanks around it** is what the search takes. -/
theorem changesPattern_of_trim (hchange : KeepsEdges change) {ds : List Char}
    (htrim : Text.trim ds = ds) : ChangesPattern change ds := by
  intro hd hop tail o rest htail hsplit hstands
  have hne : ds ≠ [] := by
    rintro rfl
    exact hop.1 stripWrapping_nil
  have hhead : (ds ++ tail).head?.any Text.isBlank = false := by
    rw [List.head?_append_of_ne_nil _ hne]
    exact (Text.trim_eq_self_iff.mp htrim).1
  have hstart : Text.trimStart (ds ++ tail) = ds ++ tail := by
    simpa [Text.trimStart] using Text.trimStart_append [] hhead
  have hblanks : (ds ++ tail).takeWhile Text.isBlank = [] := by
    have happend := Text.takeWhile_append_trimStart (ds ++ tail)
    rw [hstart] at happend
    exact List.append_left_eq_self.mp happend
  rw [hstart] at hsplit
  obtain ⟨rfl, rfl⟩ := eq_of_splitOperand hd hop htrim htail hsplit hstands.before hstands.ends
  have hbefore := hstands.before.stripWrapping_eq
  have hafter := hstands.after
  rw [String.toList_ofList] at hbefore
  refine ⟨change o, by rw [hblanks]; rfl, rfl, hbefore, ?_, ?_, fun tier _ => ?_, hchange.first o,
    hchange.last o⟩
  · simpa using hafter.stripWrapping_eq
  · simpa using hafter.balanced
  · simpa using findNextOperator_eq_none_iff.mp hafter.noOperator tier

theorem ChangesPattern.cons_blank {c : Char} (hc : Text.isBlank c = true) {ds : List Char}
    (h : ChangesPattern change ds) : ChangesPattern change (c :: ds) := by
  intro hd hop tail o rest htail hsplit hstands
  rw [stripWrapping_cons_blank hc] at hop ⊢
  have hne : ds ≠ [] := by
    rintro rfl
    exact hop.1 stripWrapping_nil
  have hlast : ds.getLast? = (c :: ds).getLast? := by
    rw [← List.singleton_append, List.getLast?_append_of_ne_nil _ hne]
  have hstart : Text.trimStart (c :: ds ++ tail) = Text.trimStart (ds ++ tail) := by
    rw [List.cons_append, Text.trimStart, List.dropWhile_cons, if_pos hc]
    rfl
  rw [hstart] at hsplit
  obtain ⟨ds', htext, hoperands, hstrip, hstrip', hreplaces⟩ :=
    h ((Balanced.cons_blank_iff hc).mp hd) hop (htail.of_getLast? hlast) hsplit hstands
  refine ⟨c :: ds', ?_, hoperands, hstrip, ?_, hreplaces.cons_blank hc⟩
  · rw [List.cons_append, List.takeWhile_cons, if_pos hc, List.cons_append, List.cons_append, htext,
      List.cons_append]
  · rw [stripWrapping_cons_blank hc, hstrip']

theorem ChangesPattern.concat_blank {c : Char} (hc : Text.isBlank c = true) {ds : List Char}
    (h : ChangesPattern change ds) : ChangesPattern change (ds ++ [c]) := by
  intro hd hop tail o rest htail hsplit hstands
  rw [stripWrapping_concat_blank hc] at hop ⊢
  have hrest : ds ++ [c] ++ tail = ds ++ c :: tail := by simp
  rw [hrest] at hsplit ⊢
  have hd := (Balanced.concat_blank_iff hc).mp hd
  obtain ⟨ds', htext, hoperands, hstrip, hstrip', hreplaces⟩ :=
    h hd hop (.blank hc tail) hsplit hstands
  have hblank := passesOver_blank hc tail
  refine ⟨ds' ++ [c], ?_, ?_, hstrip, ?_, hreplaces.concat_blank hc hd⟩
  · rw [htext, List.append_assoc, ← hblank.mapOperands_eq, List.singleton_append]
  · rw [hoperands, ← List.singleton_append, hblank.operands_eq]
  · rw [stripWrapping_concat_blank hc, hstrip']

/-- **Every pattern is changed in its place.** -/
theorem changesPattern (hchange : KeepsEdges change) (ds : List Char) : ChangesPattern change ds :=
  Text.of_trimStart (P := ChangesPattern change) (fun hc _ h => h.cons_blank hc) <|
    Text.of_trimEnd (P := ChangesPattern change) (fun hc _ h => h.concat_blank hc)
      (changesPattern_of_trim hchange (Text.trim_trim ds))

/-! ### Changing a query -/

/-- The search changes the text as the tree is changed, whatever follows it: what it leaves in its
place denotes the tree with its patterns changed, and it goes on in what follows. -/
def ChangesQuery (change : List Char → List Char) (cs : List Char) (e : Expr) : Prop :=
  ∀ ⦃tail : List Char⦄, Follows cs tail → (∀ o ∈ operands (cs ++ tail), StandsAlone change o) →
    ∃ cs', mapOperands change (cs ++ tail) = cs' ++ mapOperands change tail ∧
      (∀ o ∈ operands tail, StandsAlone change o) ∧ Denotes cs' (e.mapPatterns change) ∧
      Replaces cs cs'

section Query

variable {cs ds : List Char} {e first second : Expr}

theorem ChangesQuery.cons_blank {c : Char} (hc : Text.isBlank c = true) (hne : cs ≠ [])
    (h : ChangesQuery change cs e) : ChangesQuery change (c :: cs) e := by
  intro tail htail hstands
  have hlast : cs.getLast? = (c :: cs).getLast? := by
    rw [← List.singleton_append, List.getLast?_append_of_ne_nil _ hne]
  have hblank := passesOver_blank hc (cs ++ tail)
  rw [List.cons_append, ← List.singleton_append, hblank.operands_eq] at hstands
  obtain ⟨cs', htext, htail', hdenotes, hreplaces⟩ := h (htail.of_getLast? hlast) hstands
  refine ⟨c :: cs', ?_, htail', hdenotes.cons_blank hc, hreplaces.cons_blank hc⟩
  rw [List.cons_append, ← List.singleton_append, hblank.mapOperands_eq, htext]
  rfl

theorem ChangesQuery.concat_blank {c : Char} (hc : Text.isBlank c = true) (hb : Balanced cs)
    (h : ChangesQuery change cs e) : ChangesQuery change (cs ++ [c]) e := by
  intro tail htail hstands
  have hblank := passesOver_blank hc tail
  rw [List.append_assoc, List.singleton_append] at hstands ⊢
  obtain ⟨cs', htext, htail', hdenotes, hreplaces⟩ := h (.blank hc tail) hstands
  rw [← List.singleton_append, hblank.operands_eq] at htail'
  refine ⟨cs' ++ [c], ?_, htail', hdenotes.concat_blank hc, hreplaces.concat_blank hc hb⟩
  rw [htext, ← List.singleton_append, hblank.mapOperands_eq, List.append_assoc]

theorem ChangesQuery.group (h : ChangesQuery change cs e) :
    ChangesQuery change ('(' :: cs ++ [')']) e := by
  intro tail htail hstands
  have hopen := passesOver_open (cs ++ ')' :: tail)
  have hclose := passesOver_close tail
  have hgroup : '(' :: cs ++ [')'] ++ tail = ['('] ++ (cs ++ ')' :: tail) := by simp
  rw [hgroup, hopen.operands_eq] at hstands
  obtain ⟨cs', htext, htail', hdenotes, hreplaces⟩ := h (.close tail) hstands
  rw [← List.singleton_append, hclose.operands_eq] at htail'
  have hrest : mapOperands change (')' :: tail) = ')' :: mapOperands change tail :=
    hclose.mapOperands_eq
  refine ⟨'(' :: cs' ++ [')'], ?_, htail', hdenotes.group, hreplaces.group⟩
  rw [hgroup, hopen.mapOperands_eq, htext, hrest]
  simp

/-- No operator but `like` is found by the search. -/
theorem passesOver_operator {op : Operator} (h : op.Splits cs ds) (hlike : op ≠ .like)
    (hne : ds ≠ []) (tail : List Char) : PassesOver op.text.toList (ds ++ tail) :=
  passesOver_of_balanced op.balanced_text (splitKeyword?_text hlike)
    (h.apart_after.append_right hne tail)

theorem ChangesQuery.join {connective : Connective} (hl : ChangesQuery change cs first)
    (hr : ChangesQuery change ds second) (hne : ds ≠ [])
    (splits : (Operator.join connective).Splits cs ds) :
    ChangesQuery change (cs ++ ((Operator.join connective).text.toList ++ ds))
      (.join connective [first, second]) := by
  intro tail htail hstands
  have hletters := splits.letters rfl
  have hfollows : Follows cs ((Operator.join connective).text.toList ++ (ds ++ tail)) :=
    .join connective hletters.1 (by rw [List.head?_append_of_ne_nil _ hne]; exact hletters.2)
  have hpasses := passesOver_operator splits (by simp) hne tail
  rw [List.append_assoc, List.append_assoc] at hstands ⊢
  obtain ⟨cs', htext, hstands', hdenotes, hreplaces⟩ := hl hfollows hstands
  rw [hpasses.operands_eq] at hstands'
  obtain ⟨ds', htext', htail', hdenotes', hreplaces'⟩ := hr (htail.of_append hne) hstands'
  refine ⟨cs' ++ ((Operator.join connective).text.toList ++ ds'), ?_, htail',
    hdenotes.join hdenotes' (splits.replace rfl hreplaces hreplaces'),
    splits.replaces rfl hreplaces hreplaces'⟩
  rw [htext, hpasses.mapOperands_eq, htext']
  simp

theorem ChangesQuery.not (hnil : stripWrapping cs = []) (h : ChangesQuery change ds e)
    (hne : ds ≠ []) (splits : Operator.not.Splits cs ds) :
    ChangesQuery change (cs ++ (Operator.not.text.toList ++ ds)) (.not e) := by
  intro tail htail hstands
  have hbefore : PassesOver cs (Operator.not.text.toList ++ (ds ++ tail)) := by
    refine passesOver_of_balanced splits.balanced_before ?_
      (splits.apart_before.append_right (Operator.text_ne_nil _) _)
    exact splitKeyword?_of_stripWrapping splits.balanced_before (by rw [hnil]; rfl)
  have hpasses := passesOver_operator splits (by simp) hne tail
  rw [List.append_assoc, List.append_assoc] at hstands ⊢
  rw [hbefore.operands_eq, hpasses.operands_eq] at hstands
  obtain ⟨ds', htext, htail', hdenotes, hreplaces⟩ := h (htail.of_append hne) hstands
  have hcs := Replaces.refl splits.balanced_before
  refine ⟨cs ++ (Operator.not.text.toList ++ ds'), ?_, htail',
    .not hnil hdenotes (splits.replace rfl hcs hreplaces), splits.replaces rfl hcs hreplaces⟩
  rw [hbefore.mapOperands_eq, hpasses.mapOperands_eq, htext]
  simp

/-- After a field without a `like` the pattern is changed. -/
theorem changesQuery_like (hchange : KeepsEdges change) (left : IsOperand (stripWrapping cs))
    (right : IsOperand (stripWrapping ds)) (splits : Operator.like.Splits cs ds)
    (hfield : splitKeyword? none .outside (stripWrapping cs) = none) :
    ChangesQuery change (cs ++ (Operator.like.text.toList ++ ds))
      (.like (String.ofList (stripWrapping cs)) (String.ofList (stripWrapping ds))) := by
  intro tail htail hstands
  have hne : ds ≠ [] := by
    rintro rfl
    exact right.1 stripWrapping_nil
  have hletter : (ds ++ tail).head?.any Char.isAlpha = false := by
    rw [List.head?_append_of_ne_nil _ hne]
    exact (splits.letters rfl).2
  have hkeyword := splitKeyword?_like splits.balanced_before
    (splitKeyword?_of_stripWrapping splits.balanced_before hfield) splits.apart_before hletter
  rw [List.append_assoc, List.append_assoc] at hstands ⊢
  rw [operands_of_some hkeyword, List.forall_mem_cons] at hstands
  rw [mapOperands_of_some hkeyword]
  generalize hsplit : splitOperand (Text.trimStart (ds ++ tail)) = split at hstands ⊢
  obtain ⟨ds', htext, hoperands, hstrip, hstrip', hreplaces⟩ :=
    changesPattern hchange ds splits.balanced_after right (htail.of_append hne) hsplit hstands.1
  have hcs := Replaces.refl splits.balanced_before
  have hchanged : IsOperand (stripWrapping ds') := by
    rw [hstrip']
    simpa using hstands.1.after.isOperand
  have hdenotes := Denotes.like left hchanged (splits.replace rfl hcs hreplaces)
  refine ⟨cs ++ (Operator.like.text.toList ++ ds'), ?_, hoperands ▸ hstands.2, ?_,
    splits.replaces rfl hcs hreplaces⟩
  · simp only [List.append_assoc] at htext ⊢
    rw [htext]
  · rwa [Expr.mapPatterns, String.toList_ofList, hstrip, ← hstrip']

/-- A comparison of operands without a `like` is passed over. -/
theorem changesQuery_compare {op : Comparison} (left : IsOperand (stripWrapping cs))
    (right : IsOperand (stripWrapping ds)) (splits : (Operator.compare op).Splits cs ds)
    (hfield : splitKeyword? none .outside (stripWrapping cs) = none)
    (hvalue : splitKeyword? none .outside (stripWrapping ds) = none) :
    ChangesQuery change (cs ++ ((Operator.compare op).text.toList ++ ds))
      (.compare op (String.ofList (stripWrapping cs)) (String.ofList (stripWrapping ds))) := by
  intro tail htail hstands
  have hnone : splitKeyword? none .outside
      (cs ++ ((Operator.compare op).text.toList ++ ds)) = none := by
    have hbefore := passesOver_of_balanced splits.balanced_before
      (splitKeyword?_of_stripWrapping splits.balanced_before hfield) splits.apart
    have hsign := passesOver_of_balanced (Operator.balanced_text _)
      (splitKeyword?_text (by simp)) splits.apart_after
    rw [hbefore.eq_none_iff, hsign.eq_none_iff]
    exact splitKeyword?_of_stripWrapping splits.balanced_after hvalue
  have hpasses := passesOver_of_balanced splits.balanced hnone htail.apart
  rw [hpasses.operands_eq] at hstands
  exact ⟨_, hpasses.mapOperands_eq, hstands, .compare left right splits, .refl splits.balanced⟩

/-- **A query is changed as its tree is**, if none of its operands holds a `like`. -/
theorem changesQuery (hchange : KeepsEdges change) (h : Written cs e)
    (hleaves : ∀ operand ∈ e.leaves, splitKeyword? none .outside operand.toList = none) :
    ChangesQuery change cs e := by
  induction h with
  | cons_blank blank body ih => exact (ih hleaves).cons_blank blank body.denotes.ne_nil
  | concat_blank blank body ih => exact (ih hleaves).concat_blank blank body.denotes.1
  | group _ ih => exact (ih hleaves).group
  | join _ right splits ihl ihr =>
    simp only [Expr.leaves, Expr.leavesOfAll, List.append_nil, List.forall_mem_append] at hleaves
    exact (ihl hleaves.1).join (ihr hleaves.2) right.denotes.ne_nil splits
  | not left right splits ih => exact .not left (ih hleaves) right.denotes.ne_nil splits
  | like left right splits =>
    simp only [Expr.leaves, List.forall_mem_cons, String.toList_ofList] at hleaves
    exact changesQuery_like hchange left right splits hleaves.1
  | compare left right splits =>
    simp only [Expr.leaves, List.forall_mem_cons, String.toList_ofList] at hleaves
    exact changesQuery_compare left right splits hleaves.1 hleaves.2.1

end Query

/-! ### Wildcards -/

/-- What a character is changed to looks like the character from both sides. -/
theorem edge_toPatternOperand (c : Char) :
    (toPatternOperand [c]).head?.map edge = some (edge c) ∧
      (toPatternOperand [c]).getLast?.map edge = some (edge c) := by
  by_cases hany : c = '%'
  · subst hany
    decide
  · by_cases hone : c = '_'
    · subst hone
      decide
    · simp [toPatternOperand, hany, hone]

theorem toPatternOperand_append (cs ds : List Char) :
    toPatternOperand (cs ++ ds) = toPatternOperand cs ++ toPatternOperand ds :=
  List.flatMap_append

theorem toPatternOperand_cons (c : Char) (cs : List Char) :
    toPatternOperand (c :: cs) =
      (if c = '%' then ['.', '*'] else if c = '_' then ['.'] else [c]) ++ toPatternOperand cs :=
  List.flatMap_cons

theorem keepsEdges_toPatternOperand : KeepsEdges toPatternOperand where
  first cs := by
    cases cs with
    | nil => rfl
    | cons c cs =>
      rw [← List.singleton_append, toPatternOperand_append, first_append,
        (edge_toPatternOperand c).1]
      rfl
  last cs := by
    rcases List.eq_nil_or_concat cs with rfl | ⟨cs, c, rfl⟩
    · rfl
    · rw [List.concat_eq_append, toPatternOperand_append, last_append, (edge_toPatternOperand c).2,
        List.getLast?_concat]
      rfl

/-- **Translating the wildcards of a query** and reading it gives the tree with the wildcards of its
patterns translated, and all else unchanged, if the search for `like` takes what the reader takes.
-/
theorem parse_toPattern {query : String} {e : Expr} (h : parse query = .ok e)
    (hquote : ¬ QuoteFollowsWord query.toList)
    (hleaves : ∀ operand ∈ e.leaves, splitKeyword? none .outside operand.toList = none)
    (hstands : ∀ o ∈ operands query.toList, StandsAlone toPatternOperand o) :
    parse (toPattern query) = .ok (e.mapPatterns toPatternOperand) := by
  obtain ⟨hdenotes, hdepth⟩ := parse_eq_ok_iff.mp h
  rw [← List.append_nil query.toList] at hstands
  obtain ⟨cs, htext, -, hdenotes', -⟩ := changesQuery keepsEdges_toPatternOperand
    (hdenotes.written hquote) hleaves .nil hstands
  have hnil : mapOperands toPatternOperand [] = [] := mapOperands_of_none rfl
  rw [List.append_nil, hnil, List.append_nil] at htext
  refine parse_eq_ok_iff.mpr ⟨?_, ?_⟩
  · rwa [toPattern, String.toList_ofList, htext]
  · rwa [Expr.depth_mapPatterns]

/-- Words and literals as patterns, in groups and beside brackets. -/
theorem parse_toPattern_group :
    let query := "(provincia like And% or not(nombre like '_a (%)'))and cod_ine <> 'a_b'"
    let e := Expr.join .and [.join .or [.like "provincia" "And%",
      .not (.like "nombre" "'_a (%)'")], .compare .ne "cod_ine" "'a_b'"]
    parse query = .ok e ∧
      parse (toPattern query) = .ok (.join .and [.join .or [.like "provincia" "And.*",
        .not (.like "nombre" "'.a (.*)'")], .compare .ne "cod_ine" "'a_b'"]) := by
  intro query e
  have hparse : parse query = .ok e := by decide +kernel
  have hquote : ¬ QuoteFollowsWord query.toList := by decide +kernel
  have hleaves : ∀ operand ∈ e.leaves, splitKeyword? none .outside operand.toList = none := by
    decide +kernel
  have hstands : ∀ o ∈ operands query.toList, StandsAlone toPatternOperand o := by
    decide +kernel
  have hmap : e.mapPatterns toPatternOperand = .join .and [.join .or [.like "provincia" "And.*",
      .not (.like "nombre" "'.a (.*)'")], .compare .ne "cod_ine" "'a_b'"] := by decide +kernel
  exact ⟨hparse, hmap ▸ parse_toPattern hparse hquote hleaves hstands⟩

/-- A quote after an underscore is an apostrophe, and opens a literal when the underscore has become
a point: the translated query is refused. A pattern of several words is translated in its first word
only. -/
theorem toPattern_apostrophe :
    (parse "nombre like _'Hospitalet" = .ok (.like "nombre" "_'Hospitalet") ∧
      toPattern "nombre like _'Hospitalet" = "nombre like .'Hospitalet" ∧
      parse "nombre like .'Hospitalet" =
        .error (.malformed "nombre like .'Hospitalet" .unterminatedLiteral)) ∧
    (parse "nombre like San M%" = .ok (.like "nombre" "San M%") ∧
      parse (toPattern "nombre like San M%") = .ok (.like "nombre" "San M%") ∧
      (Expr.like "nombre" "San M%").mapPatterns toPatternOperand = .like "nombre" "San M.*") := by
  decide +kernel

end Wildcards

end FeatureQuery
