import FeatureQuery.Proofs.Bytes.Scan
import FeatureQuery.Proofs.Wildcards.Occurrences

/-!
# Literals by bytes

A quote opens a literal if the character before it does not forbid it (`opensLiteral`), and the
literal ends at the first quote that does not belong to a pair (`closingQuote`). Both can be told at
any position without a fault, and the closing quote is the one at which the text of the literal
splits (`closingQuote_eq`).

Closed literals and texts correspond one to one (`literals_are_quotations`): from the opening to the
closing quote stands the quotation of the text that unquoting gives, every quotation is a closed
literal, and two closed literals that unquote to the same text are the same.
-/

namespace FeatureQuery

namespace Text

/-- Pairs of quotes are read as one quote each and written as pairs again. -/
theorem double_undouble {body : List Char} (h : LiteralBody body) :
    double (undouble body) = body := by
  induction h with
  | nil => rfl
  | pair _ ih => simp [undouble, double, ih]
  | @char c body ne_quote _ ih =>
    rw [undouble]
    · rw [double, if_neg ne_quote, ih]
    · simp [ne_quote]

/-- **A literal is a quotation** of the text that unquoting gives. -/
theorem quote_unquote {body : List Char} (h : LiteralBody body) :
    quote (unquote ('\'' :: (body ++ ['\'']))) = '\'' :: (body ++ ['\'']) := by
  have hunquote : unquote ('\'' :: (body ++ ['\''])) = undouble body := by
    rw [unquote, if_pos ⟨rfl, List.getLast?_concat⟩, List.dropLast_concat]
  rw [hunquote, quote, double_undouble h]

end Text

namespace Bytes

open Text

/-! ### Opening quotes -/

/-- Whether a literal opens at a position. -/
def opensLiteral (cs : List Char) (p : Nat) : Except Fault Bool :=
  if (bytes cs)[p]? = some '\''.toUInt8 then do
    let before ← upTo cs p
    return FeatureQuery.opensLiteral before.getLast?
  else return false

theorem opensLiteral_of_ne {cs : List Char} {p : Nat} (h : (bytes cs)[p]? ≠ some '\''.toUInt8) :
    opensLiteral cs p = .ok false := if_neg h

/-- Where a character begins the character before it decides. -/
theorem opensLiteral_append_cons (before : List Char) (c : Char) (after : List Char) :
    opensLiteral (before ++ c :: after) (byteLength before) =
      .ok (c = '\'' && FeatureQuery.opensLiteral before.getLast?) := by
  rw [opensLiteral, upTo_append]
  by_cases hc : c = '\''
  · rw [if_pos ((getElem?_bytes_append_cons (by decide) _ _).mpr hc), decide_eq_true hc]
    rfl
  · rw [if_neg (mt (getElem?_bytes_append_cons (by decide) _ _).mp hc), decide_eq_false hc]
    rfl

theorem opensLiteral_quote {before : List Char} (tail : List Char)
    (opens : FeatureQuery.opensLiteral before.getLast? = true) :
    opensLiteral (before ++ '\'' :: tail) (byteLength before) = .ok true := by
  rw [opensLiteral_append_cons, opens]
  rfl

theorem opensLiteral_plain {before : List Char} {c : Char} (tail : List Char)
    (apostrophe : c = '\'' → FeatureQuery.opensLiteral before.getLast? = false) :
    opensLiteral (before ++ c :: tail) (byteLength before) = .ok false := by
  rw [opensLiteral_append_cons]
  by_cases hc : c = '\''
  · rw [apostrophe hc, Bool.and_false]
  · rw [decide_eq_false hc, Bool.false_and]

/-- No literal opens where the text cannot be cut. -/
theorem opensLiteral_inside {cs : List Char} {p : Nat} (h : splitAt? cs p = none) :
    opensLiteral cs p = .ok false :=
  opensLiteral_of_ne (ne_of_splitAt?_eq_none (by decide) h)

/-- **It can be told at any position** whether a literal opens there. -/
theorem exists_opensLiteral (cs : List Char) (p : Nat) :
    ∃ answer, opensLiteral cs p = .ok answer ∧
      (answer = true → (bytes cs)[p]? = some '\''.toUInt8) := by
  by_cases hbyte : (bytes cs)[p]? = some '\''.toUInt8
  · obtain ⟨before, after, rfl, rfl⟩ := (getElem?_bytes_eq_iff (by decide)).mp hbyte
    exact ⟨_, opensLiteral_append_cons before '\'' after, fun _ => hbyte⟩
  · exact ⟨false, opensLiteral_of_ne hbyte, by simp⟩

/-! ### Closing quotes -/

/-- At a quote, the search for the closing one goes on behind a pair and stops otherwise. -/
def closingQuoteStep (cs : List Char) (_ : Unit) (p : Nat) (byte : UInt8) :
    Except Fault (Move Unit (Option Nat)) :=
  if byte = '\''.toUInt8 then
    if (bytes cs)[p + 1]? = some '\''.toUInt8 then .ok (.go () (p + 2))
    else .ok (.stop (some p))
  else .ok (.go () (p + 1))

/-- The position of the quote that closes the literal opened at a position. -/
def closingQuote (cs : List Char) (opening : Nat) : Except Fault (Option Nat) :=
  scan (bytes cs) (closingQuoteStep cs) (fun _ => none) () (opening + 1)

/-- **The search for a closing quote ends**, wherever it begins, and finds a quote further on. -/
theorem exists_closingQuote (cs : List Char) (opening : Nat) :
    ∃ close?, closingQuote cs opening = .ok close? ∧
      ∀ close ∈ close?, opening < close ∧ (bytes cs)[close]? = some '\''.toUInt8 := by
  refine exists_scan (fun _ p byte hlow hbyte => ?_) (fun _ _ h => by simp at h)
    (Nat.le_refl (opening + 1))
  rw [closingQuoteStep]
  split
  · rename_i hquote
    split
    · exact .inr ⟨(), p + 2, rfl, by omega⟩
    · refine .inl ⟨some p, rfl, fun close hclose => ?_⟩
      obtain rfl := Option.some.inj hclose
      exact ⟨hlow, hquote ▸ hbyte⟩
  · exact .inr ⟨(), p + 1, rfl, Nat.lt_succ_self p⟩

theorem passesInside_closingQuoteStep (cs : List Char) :
    PassesInside cs (closingQuoteStep cs) := fun _ _ _ hsplit hbyte =>
  if_neg (byte_ne (by decide) hsplit hbyte)

theorem byteLength_concat_quote (cs : List Char) :
    byteLength (cs ++ ['\'']) = byteLength cs + 1 := byteLength_concat cs '\''

/-- The search from a boundary on. -/
theorem scan_closingQuoteStep (before after : List Char) :
    scan (bytes (before ++ after)) (closingQuoteStep (before ++ after)) (fun _ => none) ()
        (byteLength before) =
      .ok ((closeLiteral after).map fun (body, _) => byteLength (before ++ body)) := by
  fun_induction closeLiteral after generalizing before with
  | case1 =>
    rw [List.append_nil, scan_end (no_byte before)]
    rfl
  | case2 cs ih =>
    obtain ⟨byte, hbyte⟩ := exists_byte before '\'' ('\'' :: cs)
    have hquote := (byte_eq_iff (by decide) hbyte).mpr rfl
    have hnext : (bytes (before ++ '\'' :: '\'' :: cs))[byteLength before + 1]? =
        some '\''.toUInt8 := by
      have hpair := (getElem?_bytes_append_cons (q := '\'') (by decide)
        (before ++ ['\'']) cs).mpr rfl
      rwa [byteLength_concat_quote, List.append_assoc] at hpair
    have hpair := ih (before ++ ['\'', '\''])
    have hlength : byteLength (before ++ ['\'', '\'']) = byteLength before + 2 :=
      byteLength_append before ['\'', '\'']
    simp only [List.append_assoc, List.cons_append, List.nil_append, hlength] at hpair
    rw [scan_go hbyte (by rw [closingQuoteStep, if_pos hquote, if_pos hnext]) (by omega), hpair,
      Option.map_map]
    rfl
  | case3 cs hne =>
    obtain ⟨byte, hbyte⟩ := exists_byte before '\'' cs
    have hquote := (byte_eq_iff (by decide) hbyte).mpr rfl
    have hnext : (bytes (before ++ '\'' :: cs))[byteLength before + 1]? ≠ some '\''.toUInt8 := by
      intro hpair
      rw [← byteLength_concat_quote, ← List.singleton_append, ← List.append_assoc] at hpair
      cases cs with
      | nil =>
        rw [List.append_nil, no_byte] at hpair
        simp at hpair
      | cons c cs =>
        obtain rfl := (getElem?_bytes_append_cons (by decide) _ _).mp hpair
        exact hne cs rfl rfl
    rw [scan_stop hbyte (by rw [closingQuoteStep, if_pos hquote, if_neg hnext])]
    simp
  | case4 c cs _ hc ih =>
    obtain ⟨byte, hbyte⟩ := exists_byte before c cs
    have hplain := mt (byte_eq_iff (by decide) hbyte).mp hc
    have hrest := ih (before ++ [c])
    simp only [List.append_assoc, List.singleton_append] at hrest
    rw [scan_next (passesInside_closingQuoteStep _) hbyte (if_neg hplain), hrest, Option.map_map]
    rfl

/-- **The closing quote** is the one at which the text after the opening quote splits. -/
theorem closingQuote_eq (before after : List Char) :
    closingQuote (before ++ '\'' :: after) (byteLength before) =
      .ok ((closeLiteral after).map fun (body, _) => byteLength (before ++ '\'' :: body)) := by
  have h := scan_closingQuoteStep (before ++ ['\'']) after
  simp only [List.append_assoc, List.singleton_append, byteLength_concat_quote] at h
  exact h

section Closing

variable {tail body rest : List Char}

theorem closingQuote_eq_some (before : List Char) (closes : closeLiteral tail = some (body, rest)) :
    closingQuote (before ++ '\'' :: tail) (byteLength before) =
      .ok (some (byteLength (before ++ '\'' :: body))) := by
  rw [closingQuote_eq, closes]
  rfl

theorem closingQuote_eq_none (before : List Char) (never : closeLiteral tail = none) :
    closingQuote (before ++ '\'' :: tail) (byteLength before) = .ok none := by
  rw [closingQuote_eq, never]
  rfl

end Closing

/-! ### Literals and quotations -/

/-- In some text the span is what stands from a quote that opens a literal to the one that closes
it. -/
def IsLiteral (span : List Char) : Prop :=
  ∃ cs p close, opensLiteral cs p = .ok true ∧ closingQuote cs p = .ok (some close) ∧
    between cs p (close + 1) = .ok span

/-- **From the opening to the closing quote** stands the piece that the text splits off. -/
theorem exists_literal {cs : List Char} {p close : Nat} (hopens : opensLiteral cs p = .ok true)
    (hcloses : closingQuote cs p = .ok (some close)) :
    ∃ before body rest, cs = before ++ '\'' :: (body ++ '\'' :: rest) ∧ byteLength before = p ∧
      closeLiteral (body ++ '\'' :: rest) = some (body, rest) ∧
      between cs p (close + 1) = .ok ('\'' :: (body ++ ['\''])) := by
  obtain ⟨answer, hanswer, hbyte⟩ := exists_opensLiteral cs p
  obtain rfl := Except.ok.inj (hopens.symm.trans hanswer)
  obtain ⟨before, after, rfl, rfl⟩ := (getElem?_bytes_eq_iff (by decide)).mp (hbyte rfl)
  rw [closingQuote_eq, Except.ok.injEq, Option.map_eq_some_iff] at hcloses
  obtain ⟨⟨body, rest⟩, hclose, rfl⟩ := hcloses
  obtain rfl := eq_append_of_closeLiteral hclose
  refine ⟨before, body, rest, rfl, rfl, hclose, ?_⟩
  have hspan := between_append before ('\'' :: (body ++ ['\''])) rest
  rw [byteLength_enclosed _ _ _ rfl] at hspan
  simpa using hspan

theorem IsLiteral.quote_unquote {span : List Char} (h : IsLiteral span) :
    quote (unquote span) = span := by
  obtain ⟨cs, p, close, hopens, hcloses, hspan⟩ := h
  obtain ⟨before, body, rest, -, -, hclose, hpiece⟩ := exists_literal hopens hcloses
  obtain rfl := Except.ok.inj (hspan.symm.trans hpiece)
  exact Text.quote_unquote (literalBody_of_closeLiteral hclose)

/-- Every quotation is a literal of itself. -/
theorem isLiteral_quote (s : List Char) : IsLiteral (quote s) := by
  have hclose : closeLiteral (double s ++ ['\'']) = some (double s, []) :=
    closeLiteral_of_literalBody (literalBody_double s) (by simp)
  refine ⟨quote s, 0, byteLength ('\'' :: double s), ?_, ?_, ?_⟩
  · exact opensLiteral_append_cons [] '\'' (double s ++ ['\''])
  · have h := closingQuote_eq [] (double s ++ ['\''])
    rwa [hclose] at h
  · have h := between_append [] (quote s) []
    have hlength : byteLength (quote s) = byteLength ('\'' :: double s) + 1 :=
      byteLength_enclosed [] '\'' (double s) rfl
    rw [List.append_nil, List.nil_append, hlength] at h
    exact h

/-- **Closed literals and texts correspond one to one.** Wherever a quote opens a literal and the
search finds the one that closes it, the span between them is the piece at which the text splits,
and it is the quotation of what it unquotes to; unquoting undoes quoting; the literals are exactly
the quotations; and no two of them denote the same text. -/
theorem literals_are_quotations :
    (∀ cs p close, opensLiteral cs p = .ok true → closingQuote cs p = .ok (some close) →
      ∃ before body rest span, cs = before ++ '\'' :: (body ++ '\'' :: rest) ∧
        byteLength before = p ∧ closeLiteral (body ++ '\'' :: rest) = some (body, rest) ∧
        span = '\'' :: (body ++ ['\'']) ∧ between cs p (close + 1) = .ok span ∧
        quote (unquote span) = span) ∧
      (∀ s, unquote (quote s) = s) ∧
      (∀ span, IsLiteral span ↔ ∃ s, span = quote s) ∧
      ∀ span span', IsLiteral span → IsLiteral span' → unquote span = unquote span' →
        span = span' := by
  refine ⟨fun cs p close hopens hcloses => ?_, unquote_quote, fun span => ⟨fun h => ?_, ?_⟩,
    fun span span' h h' heq => ?_⟩
  · obtain ⟨before, body, rest, hcs, hp, hclose, hspan⟩ := exists_literal hopens hcloses
    exact ⟨before, body, rest, _, hcs, hp, hclose, rfl, hspan,
      IsLiteral.quote_unquote ⟨cs, p, close, hopens, hcloses, hspan⟩⟩
  · exact ⟨unquote span, h.quote_unquote.symm⟩
  · rintro ⟨s, rfl⟩
    exact isLiteral_quote s
  · rw [← h.quote_unquote, heq, h'.quote_unquote]

/-- A literal after a letter of two bytes, with pairs of quotes beside its closing quote and a quote
that follows only after a blank. -/
theorem literals_are_quotations_cadiz :
    let cs := "á='''L''O''' '".toList
    let span := "'''L''O'''".toList
    opensLiteral cs 3 = .ok true ∧ closingQuote cs 3 = .ok (some 12) ∧
      between cs 3 13 = .ok span ∧ unquote span = "'L'O'".toList ∧ quote (unquote span) = span ∧
      IsLiteral span ∧
        ∀ other, IsLiteral other → unquote other = "'L'O'".toList → span = other := by
  intro cs span
  have hopens : opensLiteral cs 3 = .ok true := by decide +kernel
  have hcloses : closingQuote cs 3 = .ok (some 12) := by decide +kernel
  have hbetween : between cs 3 13 = .ok span := by decide +kernel
  obtain ⟨before, body, rest, piece, -, -, -, -, hpiece, hquote⟩ :=
    literals_are_quotations.1 cs 3 12 hopens hcloses
  obtain rfl := Except.ok.inj (hpiece.symm.trans hbetween)
  have hliteral : IsLiteral span := ⟨cs, 3, 12, hopens, hcloses, hbetween⟩
  have hunquote : unquote span = "'L'O'".toList := by decide +kernel
  exact ⟨hopens, hcloses, hbetween, hunquote, hquote, hliteral, fun other hother heq =>
    literals_are_quotations.2.2.2 span other hliteral hother (hunquote.trans heq.symm)⟩

end Bytes
end FeatureQuery
