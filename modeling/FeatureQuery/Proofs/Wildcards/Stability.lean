import FeatureQuery.Proofs.Wildcards.Occurrences
import FeatureQuery.Proofs.Wildcards.Translation

/-!
# Translating a query again, and back

A second pass over a translated query looks for keywords and operands in a text that the first pass
has changed. A change of the operands **keeps their bounds** (`KeepsBounds`) if it leaves the quotes
where they are, brings no blank and no closing parenthesis with it, and touches no end: then the
second pass finds the same keywords, and for each of them the operand as it was changed
(`KeepsBounds.mapOperands_mapOperands`). Translating twice is translating once, and translating back
what was shown gives the query again if its operands hold no display wildcard
(`toPattern_stable_reversible`).

A query in which no keyword stands (`KeywordAt`) is not changed at all, because the search comes out
empty (`splitKeyword?_eq_none_iff`).
-/

namespace FeatureQuery

/-! ### Where a literal ends -/

namespace Text

variable {as cs : List Char}

/-- What holds no quote belongs to the literal. -/
theorem closeLiteral_append (h : '\'' ∉ as) (cs : List Char) :
    closeLiteral (as ++ cs) = (closeLiteral cs).map fun (body, rest) => (as ++ body, rest) := by
  induction as with
  | nil => simp
  | cons a as ih =>
    obtain ⟨ha, has⟩ : a ≠ '\'' ∧ '\'' ∉ as := by simpa [eq_comm] using h
    rw [List.cons_append, closeLiteral_cons ha, ih has, Option.map_map]
    rfl

theorem closeLiteral_eq_none (h : '\'' ∉ cs) : closeLiteral cs = none := by
  simpa [closeLiteral] using closeLiteral_append h []

end Text

namespace Wildcards

variable {change change' : List Char → List Char} {cs o before rest rest' after after' : List Char}

/-! ### Changes that keep the bounds of an operand -/

/-- A change that leaves the quotes of an operand where they are, brings no end of an operand with
it, and looks the same from the keyword before it. -/
structure KeepsBounds (change : List Char → List Char) : Prop where
  quote : ∀ cs ds, change (cs ++ '\'' :: ds) = change cs ++ '\'' :: change ds
  stays : ∀ cs, ∀ c ∈ change cs, c = '\'' ∨ endsOperand c = true → c ∈ cs
  first : ∀ cs, (change cs).head?.map edge = cs.head?.map edge

namespace KeepsBounds

theorem nil (h : KeepsBounds change) : change [] = [] := by
  simpa using h.first []

theorem cons_quote (h : KeepsBounds change) (cs : List Char) :
    change ('\'' :: cs) = '\'' :: change cs := by
  simpa [h.nil] using h.quote [] cs

theorem quote_notMem (h : KeepsBounds change) (hquote : '\'' ∉ cs) : '\'' ∉ change cs :=
  fun hmem => hquote (h.stays cs '\'' hmem (.inl rfl))

theorem head?_eq_quote_iff (h : KeepsBounds change) :
    (change cs).head? = some '\'' ↔ cs.head? = some '\'' :=
  ⟨eq_quote_of_edge (h.first cs), eq_quote_of_edge (h.first cs).symm⟩

/-- **A literal ends where it did.** -/
theorem closeLiteral (h : KeepsBounds change) (cs : List Char) :
    Text.closeLiteral (change cs) =
      (Text.closeLiteral cs).map fun (body, rest) => (change body, change rest) := by
  -- by induction on the length: the text is split at its first quote
  induction hn : cs.length using Nat.strongRecOn generalizing cs with
  | ind n ih =>
    subst hn
    by_cases hquote : '\'' ∈ cs
    · obtain ⟨as, bs, rfl, has⟩ := List.eq_append_cons_of_mem hquote
      rw [h.quote, Text.closeLiteral_append has, Text.closeLiteral_append (h.quote_notMem has)]
      by_cases hbs : bs.head? = some '\''
      · obtain ⟨ds, rfl⟩ := List.head?_eq_some_iff.mp hbs
        have hds := ih ds.length (by simp; omega) ds rfl
        rw [h.cons_quote, Text.closeLiteral, Text.closeLiteral, hds]
        simp only [Option.map_map, Function.comp_def, h.quote, h.cons_quote]
      · rw [Text.closeLiteral_quote hbs, Text.closeLiteral_quote (mt h.head?_eq_quote_iff.mp hbs)]
        simp
    · rw [Text.closeLiteral_eq_none hquote, Text.closeLiteral_eq_none (h.quote_notMem hquote)]
      rfl

/-- **The changed operand is found as one**, before any text that begins as the one after the
operand did. -/
theorem splitOperand (h : KeepsBounds change) (hsplit : splitOperand cs = (o, rest))
    (hrest : rest'.head? = rest.head?) : splitOperand (change o ++ rest') = (change o, rest') := by
  obtain ⟨tail, body, rfl, hclose, rfl⟩ | ⟨tail, rfl, hclose, rfl, rfl⟩ | ⟨hquote, ho, hends⟩ :=
    splitOperand_cases hsplit
  · have hquote : rest'.head? ≠ some '\'' := hrest ▸ Text.head?_ne_quote_of_closeLiteral hclose
    have hbody : Text.closeLiteral (body ++ ['\'']) = some (body, []) :=
      Text.closeLiteral_of_literalBody (Text.literalBody_of_closeLiteral hclose) (by simp)
    have hchanged := h.closeLiteral (body ++ ['\''])
    rw [hbody, Option.map_some, h.quote, h.nil] at hchanged
    have hclosed := Text.closeLiteral_of_literalBody
      (Text.literalBody_of_closeLiteral hchanged) hquote
    rw [h.cons_quote, h.quote, h.nil]
    simp [Wildcards.splitOperand, hclosed]
  · obtain rfl : rest' = [] := by simpa using hrest
    have hopen := h.closeLiteral tail
    rw [hclose, Option.map_none] at hopen
    simp [h.cons_quote, Wildcards.splitOperand, hopen]
  · refine splitOperand_append_of_plain (fun c hc => ?_) (hrest ▸ hends)
      (mt (eq_quote_of_edge ?_) hquote)
    · by_contra hc'
      have hmem := h.stays o c hc (.inr (by simpa using hc'))
      exact hc' (by simpa using List.all_eq_true.mp ho c hmem)
    · rw [first_append, h.first, hrest, ← first_append,
        append_of_splitOperand hsplit]

end KeepsBounds

/-! ### Changing the operands twice -/

namespace KeepsBounds

/-- What follows the keyword looks the same from there when its operand is changed. -/
theorem first_changed (h : KeepsBounds change) (blanks o : List Char)
    (hrest : rest'.head? = rest.head?) :
    (blanks ++ (change o ++ rest')).head?.map edge = (blanks ++ (o ++ rest)).head?.map edge := by
  simp only [first_append, h.first, hrest]

/-- No blank comes to stand before a changed operand. -/
theorem isBlank_changed (h : KeepsBounds change) (hsplit : Wildcards.splitOperand cs = (o, rest))
    (hcs : cs.head?.any Text.isBlank = false) (hrest : rest'.head? = rest.head?) :
    (change o ++ rest').head?.any Text.isBlank = false := by
  by_cases hne : change o = []
  · have ho : o = [] := by simpa [hne] using (h.first o).symm
    rw [← append_of_splitOperand hsplit, ho, List.nil_append] at hcs
    rwa [hne, List.nil_append, hrest]
  · exact isBlank_of_splitOperand (h.splitOperand hsplit hrest) hne

/-- **A second pass** finds the keyword that the first one found, and the operand as it was changed.
-/
theorem mapOperands_changed (h : KeepsBounds change)
    (hsome : splitKeyword? none .outside cs = some (before, rest))
    (hsplit : Wildcards.splitOperand (Text.trimStart rest) = (o, after))
    (hafter : after'.head? = after.head?) (change' : List Char → List Char) :
    mapOperands change' (before ++ rest.takeWhile Text.isBlank ++ change o ++ after') =
      before ++ rest.takeWhile Text.isBlank ++ change' (change o) ++
        mapOperands change' after' := by
  have hblank := h.isBlank_changed hsplit (Text.isBlank_head?_trimStart rest) hafter
  have hfound : splitKeyword? none .outside
      (before ++ (rest.takeWhile Text.isBlank ++ (change o ++ after'))) =
        some (before, rest.takeWhile Text.isBlank ++ (change o ++ after')) := by
    refine splitKeyword?_replace hsome ?_
    rw [isAlpha_of_edge (h.first_changed _ o hafter), append_of_splitOperand hsplit,
      Text.takeWhile_append_trimStart]
    exact isAlpha_of_splitKeyword? hsome
  have hstart : Text.trimStart (rest.takeWhile Text.isBlank ++ (change o ++ after')) =
      change o ++ after' := by
    have hblanks : Text.trimStart (rest.takeWhile Text.isBlank) = [] :=
      List.dropWhile_eq_nil_iff.mpr fun c hc => List.mem_takeWhile_imp hc
    rw [Text.trimStart_append _ hblank, hblanks, List.nil_append]
  have htake := Text.takeWhile_append_trimStart
    (rest.takeWhile Text.isBlank ++ (change o ++ after'))
  rw [hstart, List.append_cancel_right_eq] at htake
  simp only [List.append_assoc]
  rw [mapOperands_of_some hfound, htake, hstart, h.splitOperand hsplit hafter]
  simp only [List.append_assoc]

/-- **Changing the operands twice** is changing each of them twice. -/
theorem mapOperands_mapOperands (h : KeepsBounds change) (change' : List Char → List Char)
    (cs : List Char) :
    mapOperands change' (mapOperands change cs) = mapOperands (change' ∘ change) cs := by
  induction cs using mapOperands.induct with
  | case1 cs hnone => simp only [mapOperands_of_none hnone]
  | case2 cs before rest hsome split ih =>
    rw [mapOperands_of_some hsome, mapOperands_of_some hsome,
      h.mapOperands_changed hsome (Prod.eta _).symm (head?_mapOperands change _), ih]
    rfl

end KeepsBounds

/-- Changes that agree on the operands of a text agree on the text. -/
theorem mapOperands_congr (h : ∀ o ∈ operands cs, change o.1 = change' o.1) :
    mapOperands change cs = mapOperands change' cs := by
  induction cs using mapOperands.induct with
  | case1 cs hnone => rw [mapOperands_of_none hnone, mapOperands_of_none hnone]
  | case2 cs before rest hsome split ih =>
    rw [operands_of_some hsome, List.forall_mem_cons] at h
    rw [mapOperands_of_some hsome, mapOperands_of_some hsome, h.1, ih h.2]

theorem mapOperands_id (cs : List Char) : mapOperands id cs = cs := by
  induction cs using mapOperands.induct with
  | case1 cs hnone => exact mapOperands_of_none hnone
  | case2 cs before rest hsome split ih =>
    rw [mapOperands_of_some hsome, ih, id_eq, List.append_assoc, splitOperand_append,
      List.append_assoc, Text.takeWhile_append_trimStart, ← eq_append_of_splitKeyword? hsome]

/-! ### The two directions -/

/-- No wildcard, in either form, bounds an operand. -/
theorem notMem_wildcards {c : Char} (h : c = '\'' ∨ endsOperand c = true) :
    c ∉ ['%', '_', '.', '*'] := by
  intro hmem
  have hinside : ['%', '_', '.', '*'].all (fun c => c != '\'' && !endsOperand c) = true := by
    decide +kernel
  have hc := List.all_eq_true.mp hinside c hmem
  simp only [Bool.and_eq_true, bne_iff_ne, Bool.not_eq_true'] at hc
  rcases h with rfl | hends
  · exact hc.1 rfl
  · simp [hends] at hc

theorem keepsBounds_toPatternOperand : KeepsBounds toPatternOperand where
  quote cs ds := by
    rw [toPatternOperand_append]
    rfl
  stays cs c hmem hc := by
    obtain ⟨a, ha, hca⟩ := List.mem_flatMap.mp hmem
    have hwild := notMem_wildcards hc
    split_ifs at hca <;> simp_all
  first := keepsEdges_toPatternOperand.first

theorem keepsBounds_toDisplayOperand : KeepsBounds toDisplayOperand where
  quote cs ds := by
    fun_induction toDisplayOperand cs with
    | case1 => simp [toDisplayOperand]
    | case2 cs ih =>
      simp only [List.cons_append]
      rw [toDisplayOperand, ih]
    | case3 c cs hrun ih =>
      -- a star after a point in the whole text would be one in the text before the quote
      have hrun' : ∀ tail, c = '.' → cs ++ '\'' :: ds = '*' :: tail → False := by
        intro tail hc htail
        cases cs with
        | nil => simp at htail
        | cons d cs =>
          obtain ⟨rfl, -⟩ := List.cons.inj htail
          exact hrun cs hc rfl
      rw [List.cons_append, toDisplayOperand, ih]
      · rfl
      · exact hrun'
  stays cs c hmem hc := by
    have hwild := notMem_wildcards hc
    fun_induction toDisplayOperand cs with
    | case1 => exact hmem
    | case2 cs ih => simp_all
    | case3 a cs hrun ih =>
      obtain rfl | hmem := List.mem_cons.mp hmem
      · split_ifs at hwild ⊢ <;> simp_all
      · exact List.mem_cons_of_mem a (ih hmem)
  first cs := by
    fun_induction toDisplayOperand cs with
    | case1 => rfl
    | case2 cs ih => rfl
    | case3 a cs hrun ih => split_ifs with ha <;> simp [edge, ha]

/-- Where there is no display wildcard, nothing is translated. -/
theorem toPatternOperand_eq_self (hany : '%' ∉ cs) (hone : '_' ∉ cs) :
    toPatternOperand cs = cs := by
  induction cs with
  | nil => rfl
  | cons c cs ih =>
    simp only [List.mem_cons, not_or] at hany hone
    rw [toPatternOperand_cons, if_neg (Ne.symm hany.1), if_neg (Ne.symm hone.1), ih hany.2 hone.2]
    rfl

/-- No display wildcard is left in what has been translated. -/
theorem notMem_toPatternOperand (cs : List Char) :
    '%' ∉ toPatternOperand cs ∧ '_' ∉ toPatternOperand cs := by
  simp only [toPatternOperand, List.mem_flatMap, not_exists, not_and]
  constructor <;> intro c _ <;> split_ifs <;> simp_all [eq_comm]

theorem toPatternOperand_toPatternOperand (cs : List Char) :
    toPatternOperand (toPatternOperand cs) = toPatternOperand cs :=
  toPatternOperand_eq_self (notMem_toPatternOperand cs).1 (notMem_toPatternOperand cs).2

/-- What is shown for a pattern is translated to the pattern again. -/
theorem toPatternOperand_toDisplayOperand (hany : '%' ∉ cs) (hone : '_' ∉ cs) :
    toPatternOperand (toDisplayOperand cs) = cs := by
  fun_induction toDisplayOperand cs with
  | case1 => rfl
  | case2 cs ih =>
    simp only [List.mem_cons, not_or] at hany hone
    rw [toPatternOperand_cons, if_pos rfl, ih hany.2.2 hone.2.2]
    rfl
  | case3 c cs hrun ih =>
    simp only [List.mem_cons, not_or] at hany hone
    rw [toPatternOperand_cons, ih hany.2 hone.2]
    by_cases hc : c = '.'
    · simp [hc]
    · simp [hc, Ne.symm hany.1, Ne.symm hone.1]

/-! ### Queries -/

/-- **Translation is stable and reversible.** A translated query is translated already. What is
shown for a query is translated to the query again, if none of its operands holds a display
wildcard. A query in which no `like` stands on its own outside all literals is neither translated
nor shown otherwise. -/
theorem toPattern_stable_reversible (query : String) :
    toPattern (toPattern query) = toPattern query ∧
    ((∀ o ∈ operands query.toList, '%' ∉ o.1 ∧ '_' ∉ o.1) → toPattern (toDisplay query) = query) ∧
    ((∀ before rest, ¬ KeywordAt none query.toList before rest) →
      toPattern query = query ∧ toDisplay query = query) := by
  refine ⟨?_, fun hplain => ?_, fun hnone => ?_⟩
  · rw [toPattern, toPattern, String.toList_ofList,
      keepsBounds_toPatternOperand.mapOperands_mapOperands]
    have htwice : mapOperands (toPatternOperand ∘ toPatternOperand) query.toList =
        mapOperands toPatternOperand query.toList :=
      mapOperands_congr fun o _ => toPatternOperand_toPatternOperand o.1
    rw [htwice]
  · rw [toPattern, toDisplay, String.toList_ofList,
      keepsBounds_toDisplayOperand.mapOperands_mapOperands]
    have hid : mapOperands (toPatternOperand ∘ toDisplayOperand) query.toList =
        mapOperands id query.toList :=
      mapOperands_congr fun o ho =>
        toPatternOperand_toDisplayOperand (hplain o ho).1 (hplain o ho).2
    rw [hid, mapOperands_id, String.ofList_toList]
  · have hnone := splitKeyword?_eq_none_iff.mpr hnone
    rw [toPattern, toDisplay, mapOperands_of_none hnone, mapOperands_of_none hnone,
      String.ofList_toList]
    exact ⟨rfl, rfl⟩

/-- A literal, a literal that never ends, and a keyword in a literal and in a word. -/
theorem toPattern_stable_reversible_literals :
    (let query := "not provincia like 'And.*' and cod_ine = 1.5 or nombre like 'A.n (x"
     toDisplay query = "not provincia like 'And%' and cod_ine = 1.5 or nombre like 'A_n (x" ∧
       toPattern (toDisplay query) = query) ∧
    (let query := "estado = 'like_new' and likely_x = a_b"
     toPattern query = query ∧ toDisplay query = query) := by
  refine ⟨?_, ?_⟩
  · intro query
    have hplain : ∀ o ∈ operands query.toList, '%' ∉ o.1 ∧ '_' ∉ o.1 := by decide +kernel
    exact ⟨by decide +kernel, (toPattern_stable_reversible query).2.1 hplain⟩
  · intro query
    have hnone : splitKeyword? none .outside query.toList = none := by decide +kernel
    exact (toPattern_stable_reversible query).2.2 (splitKeyword?_eq_none_iff.mp hnone)

end Wildcards

end FeatureQuery
