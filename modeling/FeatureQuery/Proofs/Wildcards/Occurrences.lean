import FeatureQuery.Proofs.Query.Scanning
import FeatureQuery.Proofs.Wildcards.Operands

/-!
# Where the keyword stands

The search for `like` knows of literals, and of nothing else. Read from the left, a text falls into
literals and characters that stand for themselves (`OutsideLiterals`). The keyword stands where what
comes before it is made of these alone, so that no literal is open, and no letter touches it
(`KeywordAt`). The search finds only what stands so, and comes out empty only if it stands nowhere
(`splitKeyword?_eq_none_iff`).
-/

namespace FeatureQuery

namespace Text

variable {cs body rest : List Char}

/-- The body of a literal holds its quotes in pairs. -/
theorem literalBody_of_closeLiteral (h : closeLiteral cs = some (body, rest)) :
    LiteralBody body := by
  fun_induction closeLiteral cs generalizing body with
  | case1 => simp at h
  | case2 cs ih =>
    obtain ⟨⟨b, r⟩, hb, heq⟩ := Option.map_eq_some_iff.mp h
    cases heq
    exact (ih hb).pair
  | case3 cs =>
    cases h
    exact .nil
  | case4 c cs _ hc ih =>
    obtain ⟨⟨b, r⟩, hb, heq⟩ := Option.map_eq_some_iff.mp h
    cases heq
    exact (ih hb).char hc

theorem closeLiteral_of_literalBody (h : LiteralBody body) (hrest : rest.head? ≠ some '\'') :
    closeLiteral (body ++ '\'' :: rest) = some (body, rest) := by
  induction h with
  | nil => exact closeLiteral_quote hrest
  | pair _ ih =>
    simp only [List.cons_append]
    rw [closeLiteral, ih]
    rfl
  | char ne_quote _ ih =>
    rw [List.cons_append, closeLiteral_cons ne_quote, ih]
    rfl

/-- A doubled text may stand in a literal. -/
theorem literalBody_double (cs : List Char) : LiteralBody (double cs) := by
  induction cs with
  | nil => exact .nil
  | cons c cs ih =>
    by_cases hc : c = '\''
    · rw [double, if_pos hc, hc]
      exact ih.pair
    · rw [double, if_neg hc]
      exact ih.char hc

/-- **A literal ends** at the first quote that does not belong to a pair. -/
theorem closeLiteral_eq_some_iff :
    closeLiteral cs = some (body, rest) ↔
      cs = body ++ '\'' :: rest ∧ LiteralBody body ∧ rest.head? ≠ some '\'' := by
  constructor
  · intro h
    exact ⟨eq_append_of_closeLiteral h, literalBody_of_closeLiteral h,
      head?_ne_quote_of_closeLiteral h⟩
  · rintro ⟨rfl, hbody, hrest⟩
    exact closeLiteral_of_literalBody hbody hrest

end Text

namespace Wildcards

/-- After the given character, the text is made of literals that end in it and of characters that
stand for themselves. -/
inductive OutsideLiterals : Option Char → List Char → Prop where
  /-- Nothing. -/
  | nil {previous : Option Char} : OutsideLiterals previous []
  /-- A character that stands for itself: no quote that opens a literal. -/
  | plain {previous : Option Char} {c : Char} {cs : List Char}
      (apostrophe : c = '\'' → opensLiteral previous = false)
      (rest : OutsideLiterals (some c) cs) : OutsideLiterals previous (c :: cs)
  /-- A literal, to the quote that no other quote follows. -/
  | literal {previous : Option Char} {body cs : List Char}
      (opens : opensLiteral previous = true) (inside : LiteralBody body)
      (ends : cs.head? ≠ some '\'') (rest : OutsideLiterals (some '\'') cs) :
      OutsideLiterals previous ('\'' :: (body ++ '\'' :: cs))

/-- In a text after the given character, the keyword stands between the two parts, outside all
literals and with no letter on either side of it. -/
structure KeywordAt (previous : Option Char) (cs before rest : List Char) : Prop where
  eq : cs = before ++ (Operator.like.text.toList ++ rest)
  outside : OutsideLiterals previous before
  alone : Operator.touchesLetter (before.getLast?.or previous) rest.head? = false

variable {previous : Option Char} {quoting : Quoting} {c : Char} {cs before rest body : List Char}

/-! ### The search and literals -/

/-- No keyword begins in a literal. -/
theorem keyword?_inside : keyword? previous .inside cs = none := by
  rw [Option.eq_none_iff_forall_ne_some]
  intro rest hsome
  exact (keyword?_eq_some_iff.mp hsome).1 rfl

theorem keyword?_quote : keyword? previous quoting ('\'' :: cs) = none := by
  rw [Option.eq_none_iff_forall_ne_some]
  intro rest hsome
  simpa [Operator.text] using congrArg List.head? (keyword?_eq_some_iff.mp hsome).2.1

/-- After a literal the search goes on as before it. -/
theorem splitKeyword?_ended (h : cs.head? ≠ some '\'') (previous : Option Char) :
    splitKeyword? previous .ended cs = splitKeyword? previous .outside cs := by
  cases cs with
  | nil => rfl
  | cons c cs =>
    have hc : c ≠ '\'' := by simpa using h
    simp [splitKeyword?, Quoting.next, hc]

/-- **The search goes through a literal** to its end, and finds nothing if it does not end. -/
theorem splitKeyword?_inside :
    splitKeyword? previous .inside cs =
      (Text.closeLiteral cs).bind fun (body, rest) =>
        (splitKeyword? (some '\'') .outside rest).map fun (before, after) =>
          (body ++ '\'' :: before, after) := by
  fun_induction Text.closeLiteral cs generalizing previous with
  | case1 => rfl
  | case2 cs ih =>
    have hpair : splitKeyword? (some '\'') .ended ('\'' :: cs) =
        (splitKeyword? (some '\'') .inside cs).map fun (before, rest) =>
          ('\'' :: before, rest) := by
      rw [splitKeyword?_cons, keyword?_quote]
      rfl
    have hquote : splitKeyword? previous .inside ('\'' :: '\'' :: cs) =
        (splitKeyword? (some '\'') .ended ('\'' :: cs)).map fun (before, rest) =>
          ('\'' :: before, rest) := by
      rw [splitKeyword?_cons, keyword?_quote]
      rfl
    rw [hquote, hpair, ih]
    cases Text.closeLiteral cs <;> simp [Function.comp_def]
  | case3 cs hne =>
    have hhead : cs.head? ≠ some '\'' := by
      intro hquote
      obtain ⟨tail, htail⟩ := List.head?_eq_some_iff.mp hquote
      exact hne tail rfl htail
    have hended := splitKeyword?_ended hhead (some '\'')
    rw [splitKeyword?_cons, keyword?_quote]
    simp only [Option.bind_some, ← hended]
    rfl
  | case4 c cs _ hc ih =>
    have hnext : Quoting.inside.next previous c = .inside := by simp [Quoting.next, hc]
    rw [splitKeyword?_cons, keyword?_inside, hnext]
    simp only [ih]
    cases Text.closeLiteral cs <;> simp [Function.comp_def]

/-- A character that stands for itself leaves the search outside all literals. -/
theorem splitKeyword?_plain (h : keyword? previous .outside (c :: cs) = none)
    (apostrophe : c = '\'' → opensLiteral previous = false) :
    splitKeyword? previous .outside (c :: cs) =
      (splitKeyword? (some c) .outside cs).map fun (before, rest) => (c :: before, rest) := by
  have hnext : Quoting.outside.next previous c = .outside := by
    simpa [Quoting.next] using apostrophe
  rw [splitKeyword?_cons, h, hnext]

/-- A quote that opens a literal leads the search through it. -/
theorem splitKeyword?_literal (opens : opensLiteral previous = true) :
    splitKeyword? previous .outside ('\'' :: cs) =
      (Text.closeLiteral cs).bind fun (body, rest) =>
        (splitKeyword? (some '\'') .outside rest).map fun (before, after) =>
          ('\'' :: (body ++ '\'' :: before), after) := by
  have hnext : Quoting.outside.next previous '\'' = .inside := by simp [Quoting.next, opens]
  rw [splitKeyword?_cons, keyword?_quote, hnext]
  simp only [splitKeyword?_inside]
  cases Text.closeLiteral cs <;> simp [Function.comp_def]

/-! ### What is found -/

/-- The last character, or the one before the text. -/
theorem getLast?_append_cons_or (as cs : List Char) (c : Char) (previous : Option Char) :
    (as ++ c :: cs).getLast?.or previous = cs.getLast?.or (some c) := by
  rw [List.getLast?_append, List.getLast?_cons]
  cases cs.getLast? <;> rfl

/-- **Only a keyword is found.** -/
theorem keywordAt_of_splitKeyword? {found : List Char}
    (h : splitKeyword? previous .outside cs = some (found, rest)) :
    ∃ before, found = before ++ Operator.like.text.toList ∧ KeywordAt previous cs before rest := by
  -- by induction on the length: a literal is taken away as a whole
  induction hn : cs.length using Nat.strongRecOn generalizing cs previous found with
  | ind n ih =>
    subst hn
    cases cs with
    | nil => simp [splitKeyword?] at h
    | cons c cs =>
      by_cases hquote : c = '\'' ∧ opensLiteral previous = true
      · obtain ⟨rfl, hopens⟩ := hquote
        rw [splitKeyword?_literal hopens, Option.bind_eq_some_iff] at h
        obtain ⟨⟨body, r⟩, hclose, hfind⟩ := h
        obtain ⟨⟨b, a⟩, hfind, heq⟩ := Option.map_eq_some_iff.mp hfind
        cases heq
        obtain ⟨rfl, hbody, hends⟩ := Text.closeLiteral_eq_some_iff.mp hclose
        obtain ⟨before, rfl, rfl, hout, halone⟩ :=
          ih r.length (by simp; omega) hfind rfl
        refine ⟨'\'' :: (body ++ '\'' :: before), by simp, by simp, ?_, ?_⟩
        · refine hout.literal hopens hbody fun hhead => hends ?_
          rw [List.head?_append, hhead]
          rfl
        · rwa [← List.cons_append, getLast?_append_cons_or]
      · cases hat : keyword? previous .outside (c :: cs) with
        | some r =>
          rw [splitKeyword?_of_keyword? hat] at h
          cases h
          obtain ⟨-, heq, halone⟩ := keyword?_eq_some_iff.mp hat
          exact ⟨[], rfl, heq, .nil, halone⟩
        | none =>
          have happostrophe : c = '\'' → opensLiteral previous = false := by
            intro hc
            simpa [hc] using hquote
          rw [splitKeyword?_plain hat happostrophe] at h
          obtain ⟨⟨b, a⟩, hfind, heq⟩ := Option.map_eq_some_iff.mp h
          cases heq
          obtain ⟨before, rfl, rfl, hout, halone⟩ := ih cs.length (by simp) hfind rfl
          refine ⟨c :: before, rfl, rfl, hout.plain happostrophe, ?_⟩
          rwa [← List.nil_append (c :: before), getLast?_append_cons_or]

/-- **Where the keyword stands, something is found.** -/
theorem KeywordAt.splitKeyword?_ne_none (h : KeywordAt previous cs before rest) :
    splitKeyword? previous .outside cs ≠ none := by
  obtain ⟨rfl, hout, halone⟩ := h
  induction hout with
  | @nil previous =>
    have hat : keyword? previous .outside (Operator.like.text.toList ++ rest) = some rest :=
      keyword?_eq_some_iff.mpr ⟨by simp, rfl, halone⟩
    rw [List.nil_append, splitKeyword?_of_keyword? hat]
    simp
  | @plain previous c cs apostrophe _ ih =>
    rw [← List.nil_append (c :: cs), getLast?_append_cons_or] at halone
    cases hat : keyword? previous .outside (c :: cs ++ (Operator.like.text.toList ++ rest)) with
    | some r =>
      rw [splitKeyword?_of_keyword? hat]
      simp
    | none =>
      rw [List.cons_append] at hat ⊢
      rw [splitKeyword?_plain hat apostrophe]
      simpa using ih halone
  | @literal previous body cs opens inside ends _ ih =>
    rw [← List.cons_append, getLast?_append_cons_or] at halone
    have hends : (cs ++ (Operator.like.text.toList ++ rest)).head? ≠ some '\'' := by
      cases cs with
      | nil => simp [Operator.text]
      | cons => exact ends
    have hclose := Text.closeLiteral_of_literalBody inside hends
    rw [List.cons_append, List.append_assoc, List.cons_append, splitKeyword?_literal opens, hclose]
    simpa using ih halone

/-- **The search comes out empty** if the keyword stands nowhere, and only then. -/
theorem splitKeyword?_eq_none_iff :
    splitKeyword? previous .outside cs = none ↔
      ∀ before rest, ¬ KeywordAt previous cs before rest := by
  constructor
  · intro h before rest hat
    exact hat.splitKeyword?_ne_none h
  · intro h
    rw [Option.eq_none_iff_forall_ne_some]
    rintro ⟨found, rest⟩ hfind
    obtain ⟨before, -, hat⟩ := keywordAt_of_splitKeyword? hfind
    exact h before rest hat

end Wildcards
end FeatureQuery
