import FeatureQuery.Proofs.Query.Pieces

/-!
# Showing a query and reading it again

The text of a tree that was read denotes the same tree if every operand of the tree is balanced, and
so it does whenever no quote follows a word directly in the text that was read
(`reread_text`). A quote that does follow a word directly begins an operand which the text of the
tree puts behind a blank, and there it opens a literal (`reread_text_apostrophe`).
-/

namespace FeatureQuery

/-- **A query that was read is read again from its text** if its operands are balanced, in
particular if no quote follows a word directly in it. -/
theorem reread_text {query : String} {e : Expr} (h : parse query = .ok e) :
    ((∀ operand ∈ e.leaves, checkBalance operand.toList = .ok ()) → parse e.text = .ok e) ∧
      (¬ QuoteFollowsWord query.toList → parse e.text = .ok e) := by
  obtain ⟨⟨hbalanced, hreads⟩, hdepth⟩ := parse_eq_ok_iff.mp h
  have hread : (∀ operand ∈ e.leaves, Balanced operand.toList) → parse e.text = .ok e := by
    intro hleaves
    have hdenotes := e.denotes_text (hreads.isPrintable hleaves)
    rw [e.rightNested_of_isBinary hreads.isBinary] at hdenotes
    exact parse_eq_ok_iff.mpr ⟨hdenotes, hdepth⟩
  refine ⟨fun hleaves => hread fun operand ho => checkBalance_eq_ok_iff.mp (hleaves operand ho),
    fun hquote => hread ?_⟩
  exact hreads.balanced_leaves hbalanced.stripWrapping fun hstrip =>
    hquote hstrip.of_stripWrapping

/-- A literal that holds an operator, a group and a doubled quote, and signs that touch the
operands; and a quote after `not` that belongs to a balanced operand. -/
theorem reread_text_quoted :
    (let query := "((zona like 'Sant or%')or not(x<>'a ''and''('))"
     let e := Expr.join .or [.like "zona" "'Sant or%'", .not (.compare .ne "x" "'a ''and''('")]
     parse query = .ok e ∧ ¬ QuoteFollowsWord query.toList ∧
       e.text = "(zona like 'Sant or%') or (not (x <> 'a ''and''('))" ∧ parse e.text = .ok e) ∧
    (let query := "not'a'=b"
     let e := Expr.not (.compare .eq "'a'" "b")
     parse query = .ok e ∧ (∀ operand ∈ e.leaves, checkBalance operand.toList = .ok ()) ∧
       parse e.text = .ok e) := by
  have hor : parse "((zona like 'Sant or%')or not(x<>'a ''and''('))" =
      .ok (.join .or [.like "zona" "'Sant or%'", .not (.compare .ne "x" "'a ''and''('")]) := by
    decide +kernel
  have hquote : ¬ QuoteFollowsWord "((zona like 'Sant or%')or not(x<>'a ''and''('))".toList := by
    decide +kernel
  have hnot : parse "not'a'=b" = .ok (.not (.compare .eq "'a'" "b")) := by decide +kernel
  have hleaves : ∀ operand ∈ (Expr.not (.compare .eq "'a'" "b")).leaves,
      checkBalance operand.toList = .ok () := by
    decide +kernel
  exact ⟨⟨hor, hquote, by decide +kernel, (reread_text hor).2 hquote⟩,
    ⟨hnot, hleaves, (reread_text hnot).1 hleaves⟩⟩

/-- A quote directly after `like` is an apostrophe in the text that is read, and opens a literal in
the text of the tree: that text is refused, or read as another tree. -/
theorem reread_text_apostrophe :
    (parse "x like'b" = .ok (.like "x" "'b") ∧
      (Expr.like "x" "'b").text = "x like 'b" ∧
      parse "x like 'b" = .error (.malformed "x like 'b" .unterminatedLiteral)) ∧
    (let e := Expr.join .and [.like "x" "'b", .like "y" "'c"]
     parse "x like'b and y like'c" = .ok e ∧
      parse e.text = .ok (.like "x" "'b) and (y like 'c")) := by
  decide +kernel

end FeatureQuery
