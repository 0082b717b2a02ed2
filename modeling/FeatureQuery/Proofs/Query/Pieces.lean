import FeatureQuery.Proofs.Query.Printing

/-!
# The pieces of a query

The quotes and parentheses of a query are checked once, for the whole text, and the operands are cut
out of it afterwards. What stands before an operator is balanced (`balanced_before`), and so is what
stands after it unless a quote follows a word directly (`balanced_after`): the check of the whole
text takes such a quote for an apostrophe, though it begins an operand. `QuoteFollowsWord` says that
somewhere in a text a quote does so. If not, then neither in the parts into which it is taken apart
(`Balanced.sides`, `QuoteFollowsWord.of_stripWrapping`).

`Expr.leaves` lists the operands of the conditions of a tree. Those of a tree that was read are not
empty, have nothing around them to lose and hold no operator, so that the tree is printable once
they are balanced (`Reads.isPrintable`), and they are balanced if no quote follows a word directly
in the text (`Reads.balanced_leaves`).
-/

namespace FeatureQuery

/-! ### The sides of an operator -/

section Sides

variable {tier : Tier} {cs : List Char} {s : Split}

/-- **What stands before an operator** is balanced. -/
theorem balanced_before (h : findOperator tier cs = some s) : Balanced s.before := by
  obtain ⟨k, hrun, hat⟩ := exists_run_of_findOperatorFrom h
  obtain ⟨hd, hq, -⟩ := read?_of_operatorAt? hat
  exact ⟨k, hrun, hd, hq⟩

/-- What stands before an operator is apart from it. -/
theorem apart_before (h : findOperator tier cs = some s) :
    Apart s.before s.operator.text.toList := by
  obtain ⟨k, hrun, hat⟩ := exists_run_of_findOperatorFrom h
  obtain ⟨-, -, hread⟩ := read?_of_operatorAt? hat
  have hprevious : k.previous = s.before.getLast? := by
    rw [Cursor.previous_of_run hrun]
    exact Option.or_none
  obtain ⟨c, tail, htext⟩ := List.exists_cons_of_ne_nil s.operator.text_ne_nil
  have hquote : c ≠ '\'' := by
    rintro rfl
    exact s.operator.quote_notMem_text (by simp [htext])
  rw [htext]
  refine ⟨?_, fun hhead => absurd (Option.some.inj hhead) hquote⟩
  cases hword : s.operator.isWord with
  | true =>
    have htouch := (Tier.eq_of_read? hread).2.2 hword
    rw [hprevious, Operator.touchesLetter, Bool.or_eq_false_iff] at htouch
    exact .inl htouch.1
  | false => exact .inr (by simpa [htext] using (Operator.signs_of_not_isWord hword).1)

/-- What stands after an operator is apart from it, unless a quote follows a word directly. -/
theorem apart_after (h : findOperator tier cs = some s)
    (hquote : s.operator.isWord = true → s.after.head? ≠ some '\'') :
    Apart s.operator.text.toList s.after := by
  obtain ⟨k, -, hat⟩ := exists_run_of_findOperatorFrom h
  obtain ⟨-, -, hread⟩ := read?_of_operatorAt? hat
  cases hword : s.operator.isWord with
  | true =>
    have htouch := (Tier.eq_of_read? hread).2.2 hword
    rw [Operator.touchesLetter, Bool.or_eq_false_iff] at htouch
    exact apart_of_head? _ htouch.2 (hquote hword)
  | false =>
    refine apart_of_getLast? (Operator.signs_of_not_isWord hword).2 (fun hlast => ?_) _
    exact s.operator.quote_notMem_text (List.mem_of_getLast? hlast)

/-- The text up to and with an operator is balanced. -/
theorem balanced_before_append (h : findOperator tier cs = some s) :
    Balanced (s.before ++ s.operator.text.toList) :=
  ((balanced_before h).append_iff (apart_before h)).mpr s.operator.balanced_text

/-- **What stands after an operator** is balanced in a balanced text, unless a quote follows a word
directly. -/
theorem balanced_after (hc : Balanced cs) (h : findOperator tier cs = some s)
    (hquote : s.operator.isWord = true → s.after.head? ≠ some '\'') : Balanced s.after := by
  have hapart := (apart_after h hquote).append_left s.operator.text_ne_nil s.before
  rw [← eq_append_of_findOperator h, Split.whole] at hc
  exact ((balanced_before_append h).append_iff hapart).mp hc

end Sides

/-! ### The operands of a tree -/

namespace Expr

mutual

/-- The operands of the conditions, from left to right. -/
def leaves : Expr → List String
  | .compare _ field value => [field, value]
  | .like field pattern => [field, pattern]
  | .not operand => leaves operand
  | .join _ operands => leavesOfAll operands

/-- The operands of the conditions of all trees of a list. -/
def leavesOfAll : List Expr → List String
  | [] => []
  | e :: es => leaves e ++ leavesOfAll es

end

end Expr

/-- What is cut out as an operand is self-contained as soon as it is balanced. -/
theorem IsOperand.isSelfContained {cs : List Char} (h : IsOperand (stripWrapping cs))
    (hb : Balanced (stripWrapping cs)) : IsSelfContained (String.ofList (stripWrapping cs)) := by
  refine ⟨?_, ?_, ?_, ?_⟩ <;> rw [String.toList_ofList]
  · exact h.1
  · exact stripWrapping_stripWrapping cs
  · exact checkBalance_eq_ok_iff.mpr hb
  · exact h.2

/-- A tree that was read has connectives of two operands. -/
theorem Reads.isBinary {cs : List Char} {e : Expr} (h : Reads cs e) : e.IsBinary := by
  induction h with
  | join _ _ _ ihl ihr => exact ⟨rfl, ihl, ihr, trivial⟩
  | not _ _ _ ih => exact ih
  | like => trivial
  | compare => trivial

/-- **A tree that was read is printable** if all its operands are balanced. -/
theorem Reads.isPrintable {cs : List Char} {e : Expr} (h : Reads cs e)
    (hb : ∀ operand ∈ e.leaves, Balanced operand.toList) : e.IsPrintable := by
  induction h with
  | join split left right ihl ihr =>
    simp only [Expr.leaves, Expr.leavesOfAll, List.append_nil, List.mem_append] at hb
    exact ⟨by simp, ihl fun o ho => hb o (.inl ho), ihr fun o ho => hb o (.inr ho), trivial⟩
  | not split left right ih => exact ih hb
  | like split left right =>
    simp only [Expr.leaves, List.forall_mem_cons, String.toList_ofList] at hb
    exact ⟨left.isSelfContained hb.1, right.isSelfContained hb.2.1⟩
  | compare split left right =>
    simp only [Expr.leaves, List.forall_mem_cons, String.toList_ofList] at hb
    exact ⟨left.isSelfContained hb.1, right.isSelfContained hb.2.1⟩

/-! ### Quotes after words -/

/-- Whether an operator that is a word stands at the cursor, outside all literals, and a quote
follows it directly. -/
def Cursor.atWordBeforeQuote (k : Cursor) (cs : List Char) : Bool :=
  k.quoting ≠ .inside && Tier.all.any fun tier =>
    (tier.read? k.previous cs).any fun (op, rest) => op.isWord && rest.head? = some '\''

/-- Whether a quote follows a word directly in the text after the cursor. -/
def quoteFollowsWordFrom (k : Cursor) : List Char → Bool
  | [] => false
  | c :: cs =>
    k.atWordBeforeQuote (c :: cs) || (k.next c).any fun k => quoteFollowsWordFrom k cs

/-- A quote follows a word directly in the text, outside all literals. -/
def QuoteFollowsWord (cs : List Char) : Prop := quoteFollowsWordFrom .start cs = true

instance (cs : List Char) : Decidable (QuoteFollowsWord cs) := by
  unfold QuoteFollowsWord
  infer_instance

theorem Cursor.atWordBeforeQuote_iff {k : Cursor} {cs : List Char} :
    k.atWordBeforeQuote cs = true ↔ k.quoting ≠ .inside ∧ k.previous.any Char.isAlpha = false ∧
      ∃ (op : Operator) (rest : List Char), op.isWord = true ∧
        cs = op.text.toList ++ '\'' :: rest := by
  simp only [atWordBeforeQuote, Bool.and_eq_true, decide_eq_true_eq, List.any_eq_true,
    Option.any_eq_true, Prod.exists, and_congr_right_iff]
  intro _
  constructor
  · rintro ⟨tier, -, op, rest, hread, hword, hquote⟩
    obtain ⟨-, rfl, htouch⟩ := Tier.eq_of_read? hread
    have hprevious := htouch hword
    rw [Operator.touchesLetter, Bool.or_eq_false_iff] at hprevious
    obtain ⟨rest, rfl⟩ := List.head?_eq_some_iff.mp hquote
    exact ⟨hprevious.1, op, rest, hword, rfl⟩
  · rintro ⟨hprevious, op, rest, hword, rfl⟩
    refine ⟨op.tier, by cases op.tier <;> decide, op, '\'' :: rest, ?_, hword, rfl⟩
    exact Operator.read?_word hword (by rw [Operator.touchesLetter, hprevious]; rfl)

theorem quoteFollowsWordFrom_cons_iff {k : Cursor} {c : Char} {cs : List Char} :
    quoteFollowsWordFrom k (c :: cs) = true ↔ k.atWordBeforeQuote (c :: cs) = true ∨
      ∃ k', k.next c = some k' ∧ quoteFollowsWordFrom k' cs = true := by
  rw [quoteFollowsWordFrom, Bool.or_eq_true, Option.any_eq_true]

/-- What comes after a text does not matter to the words in it. -/
theorem quoteFollowsWordFrom_append {k : Cursor} {cs : List Char}
    (h : quoteFollowsWordFrom k cs = true) (ds : List Char) :
    quoteFollowsWordFrom k (cs ++ ds) = true := by
  induction cs generalizing k with
  | nil => simp [quoteFollowsWordFrom] at h
  | cons c cs ih =>
    rw [List.cons_append, quoteFollowsWordFrom_cons_iff]
    refine (quoteFollowsWordFrom_cons_iff.mp h).imp (fun hat => ?_) fun hnext => ?_
    · obtain ⟨hq, hp, op, rest, hword, heq⟩ := Cursor.atWordBeforeQuote_iff.mp hat
      exact Cursor.atWordBeforeQuote_iff.mpr ⟨hq, hp, op, rest ++ ds, hword, by
        rw [← List.cons_append, heq, List.append_assoc, List.cons_append]⟩
    · obtain ⟨k', hk', h'⟩ := hnext
      exact ⟨k', hk', ih h'⟩

/-- The words of a text that follows another are words of both. -/
theorem quoteFollowsWordFrom_of_run {k k' : Cursor} {cs ds : List Char} (hk : k.run cs = some k')
    (h : quoteFollowsWordFrom k' ds = true) : quoteFollowsWordFrom k (cs ++ ds) = true := by
  induction cs generalizing k with
  | nil =>
    cases hk
    exact h
  | cons c cs ih =>
    obtain ⟨k₁, hk₁, hrun⟩ := Option.bind_eq_some_iff.mp hk
    exact quoteFollowsWordFrom_cons_iff.mpr (.inr ⟨k₁, hk₁, ih hrun⟩)

/-- In a group the words of a text are the same. -/
theorem Cursor.Shifted.quoteFollowsWordFrom {n : Nat} {k l : Cursor} (hs : Shifted n k l)
    {cs : List Char} (h : quoteFollowsWordFrom k cs = true) :
    quoteFollowsWordFrom l cs = true := by
  induction cs generalizing k l with
  | nil => simp [FeatureQuery.quoteFollowsWordFrom] at h
  | cons c cs ih =>
    rw [quoteFollowsWordFrom_cons_iff] at h ⊢
    refine h.imp (fun hat => ?_) fun hnext => ?_
    · rw [Cursor.atWordBeforeQuote_iff] at hat ⊢
      rwa [hs.quoting, hs.letter]
    · obtain ⟨k', hk', h'⟩ := hnext
      obtain ⟨l', hl', hs'⟩ := hs.next hk'
      exact ⟨l', hl', ih hs' h'⟩

/-- After a text that is apart from it, the words of a text are the same. -/
theorem Cursor.Fresh.quoteFollowsWordFrom {k : Cursor} {ds : List Char} (hf : k.Fresh ds)
    (h : QuoteFollowsWord ds) : quoteFollowsWordFrom k ds = true := by
  cases ds with
  | nil => simp [QuoteFollowsWord, FeatureQuery.quoteFollowsWordFrom] at h
  | cons d ds =>
    rw [QuoteFollowsWord, quoteFollowsWordFrom_cons_iff] at h
    rw [quoteFollowsWordFrom_cons_iff, hf.next_eq]
    refine h.imp (fun hat => ?_) id
    obtain ⟨-, -, op, rest, hword, heq⟩ := Cursor.atWordBeforeQuote_iff.mp hat
    refine Cursor.atWordBeforeQuote_iff.mpr ⟨hf.quoting, ?_, op, rest, hword, heq⟩
    -- the text begins with a letter of the word
    refine hf.letters.resolve_right ?_
    obtain ⟨c, tail, htext⟩ := List.exists_cons_of_ne_nil op.text_ne_nil
    simp [heq, htext, Operator.isAlpha_of_isWord hword c (by simp [htext])]

theorem QuoteFollowsWord.cons_blank {c : Char} (hc : Text.isBlank c = true) {cs : List Char}
    (h : QuoteFollowsWord cs) : QuoteFollowsWord (c :: cs) := by
  obtain ⟨k, hk, hfresh⟩ := (balanced_blank hc).exists_fresh (apart_concat_blank hc [] cs)
  exact quoteFollowsWordFrom_of_run hk (hfresh.quoteFollowsWordFrom h)

theorem QuoteFollowsWord.group {cs : List Char} (h : QuoteFollowsWord cs) :
    QuoteFollowsWord ('(' :: cs ++ [')']) := by
  have hin := (Cursor.shifted_open 1).quoteFollowsWordFrom h
  exact quoteFollowsWordFrom_cons_iff.mpr
    (.inr ⟨_, Cursor.start_next_open, quoteFollowsWordFrom_append hin _⟩)

/-- The words in what is left of a text are words of the text. -/
theorem QuoteFollowsWord.of_stripWrapping {cs : List Char}
    (h : QuoteFollowsWord (stripWrapping cs)) : QuoteFollowsWord cs :=
  FeatureQuery.of_stripWrapping (P := QuoteFollowsWord) (fun hc _ h => h.cons_blank hc)
    (fun _ _ h => quoteFollowsWordFrom_append h _) (fun _ h => h.group) h

/-- An operator at which a text splits is followed directly by a quote only if it is a comparison or
a quote follows a word directly in the text. -/
theorem head?_after_ne_quote {tier : Tier} {cs : List Char} {s : Split}
    (h : findOperator tier cs = some s) (hq : ¬ QuoteFollowsWord cs)
    (hword : s.operator.isWord = true) : s.after.head? ≠ some '\'' := by
  intro hhead
  obtain ⟨k, hrun, hat⟩ := exists_run_of_findOperatorFrom h
  obtain ⟨-, hk, hread⟩ := read?_of_operatorAt? hat
  have htouch := (Tier.eq_of_read? hread).2.2 hword
  rw [Operator.touchesLetter, Bool.or_eq_false_iff] at htouch
  obtain ⟨rest, hrest⟩ := List.head?_eq_some_iff.mp hhead
  obtain ⟨c, tail, htext⟩ := List.exists_cons_of_ne_nil s.operator.text_ne_nil
  refine hq ?_
  rw [← eq_append_of_findOperator h, Split.whole, List.append_assoc]
  refine quoteFollowsWordFrom_of_run hrun ?_
  rw [htext, List.cons_append, quoteFollowsWordFrom_cons_iff]
  refine .inl (Cursor.atWordBeforeQuote_iff.mpr ⟨hk, htouch.1, s.operator, rest, hword, ?_⟩)
  rw [htext, hrest, List.cons_append]

/-- **Both sides of a split** are balanced, and no quote follows a word directly in them, if so it
is in the whole text. -/
theorem Balanced.sides {cs : List Char} (hc : Balanced cs) (hq : ¬ QuoteFollowsWord cs)
    {s : Split} (h : findNextOperator cs = some s) :
    (Balanced s.before ∧ ¬ QuoteFollowsWord s.before) ∧
      (Balanced s.after ∧ ¬ QuoteFollowsWord s.after) := by
  have hfind := (findNextOperator_eq_some_iff.mp h).1
  have hwhole := eq_append_of_findOperator hfind
  rw [Split.whole] at hwhole
  have hquote := head?_after_ne_quote hfind hq
  refine ⟨⟨balanced_before hfind, fun hb => hq ?_⟩,
    ⟨balanced_after hc hfind hquote, fun ha => hq ?_⟩⟩
  · rw [← hwhole, List.append_assoc]
    exact quoteFollowsWordFrom_append hb _
  · have hapart := (apart_after hfind hquote).append_left s.operator.text_ne_nil s.before
    obtain ⟨k, hk, hfresh⟩ := (balanced_before_append hfind).exists_fresh hapart
    rw [← hwhole]
    exact quoteFollowsWordFrom_of_run hk (hfresh.quoteFollowsWordFrom ha)

/-- **Both sides of a split** are pieces between which the operator stands. -/
theorem Balanced.splits {cs : List Char} (hc : Balanced cs) (hq : ¬ QuoteFollowsWord cs)
    {s : Split} (h : findNextOperator cs = some s)
    (hsign : s.operator.isWord = false → findOperator .comparison s.after = none) :
    s.operator.Splits s.before s.after := by
  obtain ⟨⟨hbefore, -⟩, hafter, -⟩ := hc.sides hq h
  obtain ⟨hfind, hweaker⟩ := findNextOperator_eq_some_iff.mp h
  have hapartBefore := apart_before hfind
  have hapartAfter := apart_after hfind (head?_after_ne_quote hfind hq)
  have hwhole := eq_append_of_findOperator hfind
  rw [Split.whole] at hwhole
  -- what holds no operator of a tier holds none before the split and none after it
  have hsides : ∀ tier : Tier, tier.rank < s.operator.tier.rank →
      findOperator tier s.before = none ∧ findOperator tier s.after = none := by
    intro tier hlt
    have hnone := hweaker tier hlt
    rw [← hwhole, findOperator_append_eq_none_iff (balanced_before_append hfind)
      (hapartAfter.append_left s.operator.text_ne_nil _),
      findOperator_append_eq_none_iff hbefore hapartBefore] at hnone
    exact ⟨hnone.1.1, hnone.2⟩
  refine ⟨hbefore, hafter, fun tier hle => ?_, fun tier hlt => (hsides tier hlt).2, hapartBefore,
    hapartAfter, ?_⟩
  · rcases Nat.lt_or_eq_of_le hle with hlt | heq
    · exact (hsides tier hlt).1
    · obtain rfl : tier = s.operator.tier := by
        cases tier <;> cases htier : s.operator.tier <;> simp_all [Tier.rank]
      exact findOperatorFrom_before hfind hapartBefore.letters
  · cases hop : s.operator with
    | compare op => exact head?_of_findOperator_comparison (hsign (by rw [hop]; rfl)) op
    | _ =>
      obtain ⟨k, -, hat⟩ := exists_run_of_findOperatorFrom hfind
      have htouch := (Tier.eq_of_read? (read?_of_operatorAt? hat).2.2).2.2 (by rw [hop]; rfl)
      rw [Operator.touchesLetter, Bool.or_eq_false_iff] at htouch
      exact htouch.2

/-- **The operands of a tree that was read** from a balanced text are balanced if no quote follows a
word directly in the text. -/
theorem Reads.balanced_leaves {cs : List Char} {e : Expr} (h : Reads cs e) (hc : Balanced cs)
    (hq : ¬ QuoteFollowsWord cs) : ∀ operand ∈ e.leaves, Balanced operand.toList := by
  have hstrip : ∀ {ds : List Char}, Balanced ds ∧ ¬ QuoteFollowsWord ds →
      Balanced (stripWrapping ds) ∧ ¬ QuoteFollowsWord (stripWrapping ds) := fun h =>
    ⟨h.1.stripWrapping, fun hs => h.2 hs.of_stripWrapping⟩
  induction h with
  | join split left right ihl ihr =>
    obtain ⟨hbefore, hafter⟩ := hc.sides hq split
    simp only [Expr.leaves, Expr.leavesOfAll, List.append_nil, List.mem_append]
    rintro operand (ho | ho)
    · exact ihl (hstrip hbefore).1 (hstrip hbefore).2 operand ho
    · exact ihr (hstrip hafter).1 (hstrip hafter).2 operand ho
  | not split left right ih =>
    have hafter := (hc.sides hq split).2
    exact ih (hstrip hafter).1 (hstrip hafter).2
  | like split left right =>
    obtain ⟨hbefore, hafter⟩ := hc.sides hq split
    simpa [Expr.leaves] using ⟨hbefore.1.stripWrapping, hafter.1.stripWrapping⟩
  | compare split left right =>
    obtain ⟨hbefore, hafter⟩ := hc.sides hq split
    simpa [Expr.leaves] using ⟨hbefore.1.stripWrapping, hafter.1.stripWrapping⟩

end FeatureQuery
