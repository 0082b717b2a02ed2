import FeatureQuery.Proofs.Bytes.Keywords
import FeatureQuery.Proofs.Bytes.Parsing

/-!
# No text leads out of bounds

Whatever a text is made of, the searches that address it by bytes answer with boundaries, and each
piece is cut out between two boundaries that come in order (`InBounds`); no depth falls below zero,
and each text that is read in turn is shorter. Reading a query and rewriting it therefore come to an
end on every text, with what `FeatureQuery.parse`, `Wildcards.toPattern` and `Wildcards.toDisplay`
give (`reading_in_bounds`).
-/

namespace FeatureQuery.Bytes

open Text Wildcards

/-- The searches that address a text by bytes come to an end without faults, and answer with
boundaries of the text. -/
structure InBounds (cs : List Char) : Prop where
  /-- It can be told at any position whether a literal opens there. -/
  opensLiteral (p : Nat) : ∃ answer, opensLiteral cs p = .ok answer
  /-- A closing quote stands between two boundaries, wherever the search begins. -/
  closingQuote (opening : Nat) : ∃ close?, closingQuote cs opening = .ok close? ∧
    ∀ close ∈ close?, opening < close ∧ IsBoundary cs close ∧ IsBoundary cs (close + 1)
  /-- So does a closing parenthesis. -/
  closingParen (opening : Nat) : ∃ close?, closingParen cs opening = .ok close? ∧
    ∀ close ∈ close?, opening < close ∧ IsBoundary cs close ∧ IsBoundary cs (close + 1)
  /-- It can be told at any position which operator stands there. -/
  operatorAt (tier : Tier) (p : Nat) : ∃ found?, operatorAt tier cs p = .ok found?
  /-- The first operator of a tier stands between two boundaries. -/
  operator (tier : Tier) : ∃ found?, findOperator tier cs = .ok found? ∧
    ∀ found ∈ found?, found.start < found.stop ∧ IsBoundary cs found.start ∧
      IsBoundary cs found.stop
  /-- Parentheses are counted to the end of the text or to the one that closes nothing. -/
  balance : ∃ result, checkBalance cs = .ok result
  /-- Parentheses are taken away until none encloses the text. -/
  wrapping : ∃ body, stripWrapping cs = .ok body ∧ body.length ≤ cs.length
  /-- What is left of the two sides of an operator is shorter than the text. -/
  sides : ∃ found?, findNextOperator cs = .ok found? ∧ ∀ found ∈ found?, ∃ left right,
    (upTo cs found.start >>= stripWrapping) = .ok left ∧ left.length < cs.length ∧
      (onward cs found.stop >>= stripWrapping) = .ok right ∧ right.length < cs.length
  /-- The first keyword ends at a boundary. -/
  keyword : ∃ stop?, findKeyword cs = .ok stop? ∧
    ∀ stop ∈ stop?, 4 ≤ stop ∧ IsBoundary cs stop
  /-- An operand begins and ends at a boundary. -/
  operand : ∃ lead operand, splitOperand cs = .ok (lead, operand) ∧ IsBoundary cs lead ∧
    IsBoundary cs (lead + byteLength operand)

section InBounds

variable {cs : List Char}

/-- The positions of an operator are boundaries. -/
theorem isBoundary_of_split {s : Split} (h : s.whole = cs) :
    s.start < s.stop ∧ IsBoundary cs s.start ∧ IsBoundary cs s.stop := by
  have hpos : 0 < byteLength s.operator.text.toList := by
    obtain ⟨c, tail, htext⟩ := List.exists_cons_of_ne_nil s.operator.text_ne_nil
    have hc := c.utf8Size_pos
    rw [htext, byteLength_cons]
    omega
  have hstart := isBoundary_append s.before (s.operator.text.toList ++ s.after)
  have hstop := isBoundary_append (s.before ++ s.operator.text.toList) s.after
  rw [byteLength_append] at hstop
  rw [← List.append_assoc] at hstart
  rw [← h]
  exact ⟨Nat.lt_add_of_pos_right hpos, hstart, hstop⟩

theorem exists_operatorAt (tier : Tier) (cs : List Char) (p : Nat) :
    ∃ found?, operatorAt tier cs p = .ok found? := by
  cases hsplit : splitAt? cs p with
  | none => exact ⟨none, operatorAt_inside hsplit⟩
  | some parts =>
    obtain ⟨rfl, rfl⟩ := splitAt?_eq_some_iff.mp hsplit
    exact ⟨_, operatorAt_append tier parts.1 parts.2⟩

theorem exists_sides (cs : List Char) :
    ∃ found?, findNextOperator cs = .ok found? ∧ ∀ found ∈ found?, ∃ left right,
      (upTo cs found.start >>= stripWrapping) = .ok left ∧ left.length < cs.length ∧
        (onward cs found.stop >>= stripWrapping) = .ok right ∧ right.length < cs.length := by
  refine ⟨_, findNextOperator_eq cs, fun found hfound => ?_⟩
  obtain ⟨s, hs, rfl⟩ := Option.map_eq_some_iff.mp hfound
  obtain ⟨hbefore, hafter⟩ := cut_at_operator hs
  obtain ⟨hleft, hright⟩ := length_side_lt hs
  refine ⟨_, _, ?_, hleft, ?_, hright⟩
  · rw [Found.ofSplit, hbefore, ok_bind, stripWrapping_eq]
  · rw [Found.ofSplit, hafter, ok_bind, stripWrapping_eq]

theorem exists_keyword (cs : List Char) : ∃ stop?, findKeyword cs = .ok stop? ∧
    ∀ stop ∈ stop?, 4 ≤ stop ∧ IsBoundary cs stop := by
  refine ⟨_, findKeyword_eq cs, fun stop hstop => ?_⟩
  obtain ⟨⟨found, rest⟩, hfind, rfl⟩ := Option.map_eq_some_iff.mp hstop
  obtain ⟨before, rfl, hat⟩ := keywordAt_of_splitKeyword? hfind
  have hlength := byteLength_append before Operator.like.text.toList
  rw [byteLength_like] at hlength
  rw [hat.eq, ← List.append_assoc]
  exact ⟨Nat.le_of_add_left_le (Nat.le_of_eq hlength.symm), isBoundary_append _ rest⟩

theorem exists_operand (cs : List Char) : ∃ lead operand, splitOperand cs = .ok (lead, operand) ∧
    IsBoundary cs lead ∧ IsBoundary cs (lead + byteLength operand) := by
  refine ⟨_, _, splitOperand_eq cs, ?_, ?_⟩
  · have hlead := isBoundary_append (cs.takeWhile isBlank) (trimStart cs)
    rwa [takeWhile_append_trimStart] at hlead
  · have hstop := isBoundary_append
      (cs.takeWhile isBlank ++ (Wildcards.splitOperand (trimStart cs)).1)
      (Wildcards.splitOperand (trimStart cs)).2
    rwa [List.append_assoc, splitOperand_append, takeWhile_append_trimStart,
      byteLength_append] at hstop

/-- **Every text is addressed within its bounds.** -/
theorem inBounds (cs : List Char) : InBounds cs where
  opensLiteral p := by
    obtain ⟨answer, hanswer, -⟩ := exists_opensLiteral cs p
    exact ⟨answer, hanswer⟩
  closingQuote opening := by
    obtain ⟨close?, hcloses, hclose⟩ := exists_closingQuote cs opening
    exact ⟨close?, hcloses, fun close hmem =>
      ⟨(hclose close hmem).1, isBoundary_of_getElem? (by decide) (hclose close hmem).2⟩⟩
  closingParen opening := by
    obtain ⟨close?, hcloses, hclose⟩ := exists_closingParen cs opening
    exact ⟨close?, hcloses, fun close hmem =>
      ⟨(hclose close hmem).1, isBoundary_of_getElem? (by decide) (hclose close hmem).2⟩⟩
  operatorAt tier p := exists_operatorAt tier cs p
  operator tier := by
    refine ⟨_, findOperator_eq tier cs, fun found hfound => ?_⟩
    obtain ⟨s, hs, rfl⟩ := Option.map_eq_some_iff.mp hfound
    exact isBoundary_of_split (eq_append_of_findOperator hs)
  balance := ⟨_, checkBalance_eq cs⟩
  wrapping := ⟨_, stripWrapping_eq cs, length_stripWrapping_le cs⟩
  sides := exists_sides cs
  keyword := exists_keyword cs
  operand := exists_operand cs

end InBounds

/-- **Every text is read and rewritten to the end.** The positions at which a text is addressed are
boundaries of it, and come in order; each text that is read in turn is shorter; and reading a query
and rewriting it in either direction come out without a fault. -/
theorem reading_in_bounds (text : String) :
    InBounds text.toList ∧ parse text = .ok (FeatureQuery.parse text) ∧
      toPattern text = .ok (Wildcards.toPattern text) ∧
      toDisplay text = .ok (Wildcards.toDisplay text) :=
  ⟨inBounds text.toList, parse_eq text, toPattern_eq text, toDisplay_eq text⟩

/-- The third byte of the text lies inside a letter, the keyword ends at a boundary, and the literal
at the end never closes. -/
theorem reading_in_bounds_cadiz :
    let text := "Cádiz like '%ñ' or (é = 'x"
    findKeyword text.toList = .ok (some 11) ∧ IsBoundary text.toList 11 ∧
      ¬ IsBoundary text.toList 2 ∧
      parse text = .ok (.error (.malformed text .unterminatedLiteral)) ∧
      toPattern text = .ok "Cádiz like '.*ñ' or (é = 'x" := by
  intro text
  have hkeyword : findKeyword text.toList = .ok (some 11) := by decide +kernel
  obtain ⟨hbounds, hparse, hpattern, -⟩ := reading_in_bounds text
  obtain ⟨stop?, hstop, hboundary⟩ := hbounds.keyword
  obtain rfl := Except.ok.inj (hkeyword.symm.trans hstop)
  have herror : FeatureQuery.parse text = .error (.malformed text .unterminatedLiteral) := by
    decide +kernel
  have hchanged : Wildcards.toPattern text = "Cádiz like '.*ñ' or (é = 'x" := by decide +kernel
  have hinside : splitAt? text.toList 2 = none := by decide +kernel
  refine ⟨hkeyword, (hboundary 11 rfl).2, ?_, hparse.trans (congrArg _ herror),
    hpattern.trans (congrArg _ hchanged)⟩
  rw [← isSome_splitAt?_iff, hinside]
  simp

end FeatureQuery.Bytes
