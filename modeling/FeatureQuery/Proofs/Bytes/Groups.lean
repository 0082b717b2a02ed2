import FeatureQuery.Proofs.Bytes.Literals
import FeatureQuery.Proofs.Outcome

/-!
# Groups by bytes

The search for the parenthesis that closes a group and the check that everything closes take the
same steps (`groupStep`): they go on behind a literal as a whole, count the parentheses that are
open, and stop at one that closes nothing. They differ in what they answer.

Both do what the cursor does. Outside all literals the cursor has one of six things before it
(`Cursor.Ahead`), and in each case the step leads to where the cursor comes out of it, so that the
answer is the one that the cursor gives (`scan_groupStep`). Hence the search finds the parenthesis
at which the group splits (`closingParen_eq`), and the check answers as `FeatureQuery.checkBalance`
(`checkBalance_eq`).
-/

namespace FeatureQuery

/-! ### What the cursor has before it -/

namespace Cursor

variable {k k' : Cursor} {c : Char} {cs tail body : List Char}

/-- **A literal is read** to the quote that closes it, and changes no depth. -/
theorem OutsideBefore.run_literal (hk : k.OutsideBefore (some '\''))
    (opens : opensLiteral k.previous = true) (hbody : LiteralBody body) :
    k.run ('\'' :: (body ++ ['\''])) = some ⟨some '\'', k.depth, .ended⟩ := by
  obtain ⟨k', hrun, hd, hq⟩ := hbody.exists_run (k := ⟨some '\'', k.depth, .inside⟩) rfl
  rw [run, hk.next_quote opens, Option.bind_some, run_append, hrun, Option.bind_some, run,
    next_inside hq, if_pos rfl, hd]
  rfl

/-- A literal that does not end is read to the end of the text, and the cursor stays in it. -/
theorem exists_run_of_closeLiteral_eq_none (hk : k.quoting = .inside)
    (h : Text.closeLiteral cs = none) : ∃ k', k.run cs = some k' ∧ k'.quoting = .inside := by
  fun_induction Text.closeLiteral cs generalizing k with
  | case1 => exact ⟨k, rfl, hk⟩
  | case2 cs ih =>
    rw [run, next_inside hk, Option.bind_some, if_pos rfl, run, next_ended_quote rfl,
      Option.bind_some]
    exact ih rfl (Option.map_eq_none_iff.mp h)
  | case3 => simp at h
  | case4 c cs _ hc ih =>
    rw [run, next_inside hk, Option.bind_some, if_neg hc]
    exact ih rfl (Option.map_eq_none_iff.mp h)

/-- What a text begins with, for a cursor outside all literals. -/
inductive Ahead (k : Cursor) : List Char → Prop where
  /-- Nothing. -/
  | nil : Ahead k []
  /-- A literal, to the quote that closes it. -/
  | literal {tail body rest : List Char} (opens : opensLiteral k.previous = true)
      (closes : Text.closeLiteral tail = some (body, rest)) : Ahead k ('\'' :: tail)
  /-- A literal that does not end. -/
  | unclosed {tail : List Char} (opens : opensLiteral k.previous = true)
      (never : Text.closeLiteral tail = none) : Ahead k ('\'' :: tail)
  /-- A parenthesis that opens a group. -/
  | opening {tail : List Char} : Ahead k ('(' :: tail)
  /-- A parenthesis that closes one. -/
  | closing {tail : List Char} : Ahead k (')' :: tail)
  /-- A character that stands for itself. -/
  | plain {c : Char} {tail : List Char} (ne_open : c ≠ '(') (ne_close : c ≠ ')')
      (apostrophe : c = '\'' → opensLiteral k.previous = false) : Ahead k (c :: tail)

theorem ahead (k : Cursor) (cs : List Char) : k.Ahead cs := by
  cases cs with
  | nil => exact .nil
  | cons c tail =>
    by_cases hopen : c = '('
    · exact hopen ▸ .opening
    · by_cases hclose : c = ')'
      · exact hclose ▸ .closing
      · by_cases hquote : c = '\'' ∧ opensLiteral k.previous = true
        · obtain ⟨rfl, opens⟩ := hquote
          cases hend : Text.closeLiteral tail with
          | none => exact .unclosed opens hend
          | some _ => exact .literal opens hend
        · exact .plain hopen hclose fun hc => by simpa [hc] using hquote

/-- The cursor stands between two texts, outside all literals. -/
structure Between (k : Cursor) (before after : List Char) : Prop where
  previous : k.previous = before.getLast?
  outside : k.OutsideBefore after.head?

/-- Outside all literals the cursor takes a piece of a text, and is outside again behind it. -/
structure Takes (k : Cursor) (piece rest : List Char) (k' : Cursor) : Prop where
  /-- There is something to take. -/
  ne_nil : piece ≠ []
  /-- Nothing in the piece stops the cursor. -/
  run : k.run piece = some k'
  /-- What follows does not lead back into a literal. -/
  outside : k'.OutsideBefore rest.head?

variable {before rest inside : List Char} {depth : Nat}

theorem Between.takes (h : k.Between before (cs ++ rest)) (ht : k.Takes cs rest k') :
    k'.Between (before ++ cs) rest :=
  ⟨by rw [previous_of_run ht.run, h.previous, List.getLast?_append], ht.outside⟩

theorem takes_literal (hk : k.OutsideBefore (some '\'')) (opens : opensLiteral k.previous = true)
    (closes : Text.closeLiteral tail = some (body, rest)) :
    k.Takes ('\'' :: (body ++ ['\''])) rest ⟨some '\'', k.depth, .ended⟩ :=
  ⟨List.cons_ne_nil _ _, hk.run_literal opens (Text.literalBody_of_closeLiteral closes),
    outsideBefore_of_ended rfl (Text.head?_ne_quote_of_closeLiteral closes)⟩

theorem takes_opening (hq : k.quoting ≠ .inside) :
    k.Takes ['('] rest ⟨some '(', k.depth + 1, .outside⟩ :=
  ⟨List.cons_ne_nil _ _, by rw [run, next_open hq]; rfl, outsideBefore_of_outside rfl _⟩

theorem takes_closing (hq : k.quoting ≠ .inside) (hd : k.depth = depth + 1) :
    k.Takes [')'] rest ⟨some ')', depth, .outside⟩ :=
  ⟨List.cons_ne_nil _ _, by rw [run, next_close_succ hq hd]; rfl, outsideBefore_of_outside rfl _⟩

theorem takes_plain (hk : k.OutsideBefore (some c)) (ne_open : c ≠ '(') (ne_close : c ≠ ')')
    (apostrophe : c = '\'' → opensLiteral k.previous = false) :
    k.Takes [c] rest ⟨some c, k.depth, .outside⟩ :=
  ⟨List.cons_ne_nil _ _, by rw [run, hk.next_plain ne_open ne_close apostrophe]; rfl,
    outsideBefore_of_outside rfl _⟩

/-- To the end of a group the cursor is one deeper than before it. -/
theorem exists_run_opened (hq : k.quoting ≠ .inside)
    (closes : closeGroup .inGroup tail = some (inside, rest)) :
    ∃ l, k.run ('(' :: inside) = some l ∧ l.depth = k.depth + 1 ∧ l.quoting ≠ .inside := by
  obtain ⟨k₁, hinside, hstop⟩ := exists_run_of_closeGroup closes
  obtain ⟨hd, hq₁⟩ := outside_of_next_eq_none hstop
  obtain ⟨l, hl, hs⟩ := (shifted_after (k.depth + 1) 0 '(' .outside).run hinside
  rw [Nat.zero_add] at hl
  refine ⟨l, ?_, ?_, hs.quoting ▸ hq₁⟩
  · rw [run, next_open hq, Option.bind_some, hl]
  · rw [hs.depth, hd, Nat.zero_add]

theorem takes_group (hq : k.quoting ≠ .inside)
    (closes : closeGroup .inGroup tail = some (inside, rest)) :
    k.Takes ('(' :: (inside ++ [')'])) rest ⟨some ')', k.depth, .outside⟩ := by
  obtain ⟨l, hrun, hd, hq'⟩ := exists_run_opened hq closes
  refine ⟨List.cons_ne_nil _ _, ?_, outsideBefore_of_outside rfl _⟩
  rw [← List.cons_append, run_append, hrun, Option.bind_some, run, next_close_succ hq' hd]
  rfl

/-! ### What the cursor comes to -/

variable {α : Type} {unterminated : α} {unmatched : Nat → α} {finish : Nat → α} {p : Nat}

/-- The answer at the end of a text, or at the parenthesis that closes nothing in it. -/
def answer (unterminated : α) (unmatched : Nat → α) (finish : Nat → α) (k : Cursor) (p : Nat) :
    List Char → α
  | [] => if k.quoting = .inside then unterminated else finish k.depth
  | c :: cs =>
    match k.next c with
    | none => unmatched p
    | some k => answer unterminated unmatched finish k (p + c.utf8Size) cs

theorem answer_append (hrun : k.run cs = some k') (ds : List Char) :
    answer unterminated unmatched finish k p (cs ++ ds) =
      answer unterminated unmatched finish k' (p + Text.byteLength cs) ds := by
  induction cs generalizing k p with
  | nil =>
    cases hrun
    rfl
  | cons c cs ih =>
    obtain ⟨k₁, hnext, htail⟩ := Option.bind_eq_some_iff.mp hrun
    rw [List.cons_append, answer, hnext]
    simp only [ih htail, Text.byteLength_cons, Nat.add_assoc]

/-- In a literal that does not end there is no parenthesis. -/
theorem OutsideBefore.answer_unclosed (hk : k.OutsideBefore (some '\''))
    (opens : opensLiteral k.previous = true) (never : Text.closeLiteral tail = none) :
    answer unterminated unmatched finish k p ('\'' :: tail) = unterminated := by
  obtain ⟨k', hrun, hq⟩ := exists_run_of_closeLiteral_eq_none
    (k := ⟨some '\'', k.depth, .inside⟩) rfl never
  have hall : k.run ('\'' :: tail) = some k' := by
    rw [run, hk.next_quote opens]
    exact hrun
  rw [← List.append_nil ('\'' :: tail), answer_append hall, answer, if_pos hq]

/-- The parenthesis at which a group splits. -/
theorem answer_closeGroup (k : Cursor) (p : Nat) (cs : List Char) :
    answer none some (fun _ => none) k p cs =
      (closeGroup k cs).map fun (inside, _) => p + Text.byteLength inside := by
  induction cs generalizing k p with
  | nil => simp [answer, closeGroup]
  | cons c cs ih =>
    rw [answer, closeGroup]
    cases k.next c with
    | none => rfl
    | some k =>
      simp only [ih, Option.map_map, Function.comp_def, Text.byteLength_cons, Nat.add_assoc]

/-- The check that everything closes. -/
theorem answer_checkBalance (k : Cursor) (p : Nat) (cs : List Char) :
    answer (.error .unterminatedLiteral) (fun p => .error (.unmatchedClose p))
        (fun depth => if 0 < depth then .error .unclosedGroup else .ok ()) k p cs =
      checkBalanceFrom k p cs := by
  induction cs generalizing k p with
  | nil => rfl
  | cons c cs ih =>
    rw [answer, checkBalanceFrom]
    cases k.next c with
    | none => rfl
    | some k => exact ih k _

end Cursor

namespace Bytes

open Text

section Step

variable {α : Type} {unterminated : α} {unmatched : Nat → α} {finish : Nat → α}

/-- What a search that minds groups does at a byte: it goes on behind a literal, counts the
parentheses that are open, and stops at one that closes nothing. -/
def groupStep (unterminated : α) (unmatched : Nat → α) (cs : List Char) (depth p : Nat)
    (byte : UInt8) : Except Fault (Move Nat α) := do
  if ← opensLiteral cs p then
    match ← closingQuote cs p with
    | some close => return .go depth (close + 1)
    | none => return .stop unterminated
  else if byte = '('.toUInt8 then
    return .go (depth + 1) (p + 1)
  else if byte = ')'.toUInt8 then
    if depth = 0 then return .stop (unmatched p)
    else return .go (← minus depth 1) (p + 1)
  else
    return .go depth (p + 1)

variable {cs before tail : List Char} {depth p : Nat} {byte : UInt8} {c : Char} {k : Cursor}

theorem groupStep_literal {close : Nat} (hopens : opensLiteral cs p = .ok true)
    (hcloses : closingQuote cs p = .ok (some close)) :
    groupStep unterminated unmatched cs depth p byte = .ok (.go depth (close + 1)) := by
  simp [groupStep, hopens, hcloses, pure, Except.pure]

theorem groupStep_unclosed (hopens : opensLiteral cs p = .ok true)
    (hnever : closingQuote cs p = .ok none) :
    groupStep unterminated unmatched cs depth p byte = .ok (.stop unterminated) := by
  simp [groupStep, hopens, hnever, pure, Except.pure]

theorem groupStep_of_not_opensLiteral (hplain : opensLiteral cs p = .ok false) :
    groupStep unterminated unmatched cs depth p byte =
      if byte = '('.toUInt8 then .ok (.go (depth + 1) (p + 1))
      else if byte = ')'.toUInt8 then
        if depth = 0 then .ok (.stop (unmatched p)) else .ok (.go (depth - 1) (p + 1))
      else .ok (.go depth (p + 1)) := by
  simp only [groupStep, hplain, ok_bind, pure, Except.pure, Bool.false_eq_true, if_false]
  -- the depth is not zero where it is made smaller
  refine if_congr Iff.rfl rfl (if_congr Iff.rfl ?_ rfl)
  split
  · rfl
  · rw [minus_of_le (by omega), ok_bind]

theorem passesInside_groupStep :
    PassesInside cs (groupStep unterminated unmatched cs) := fun depth p byte hsplit hbyte => by
  rw [groupStep_of_not_opensLiteral (opensLiteral_inside hsplit),
    if_neg (byte_ne (by decide) hsplit hbyte), if_neg (byte_ne (by decide) hsplit hbyte)]

/-- Outside all literals a character changes the depth as it does for the cursor. -/
theorem scan_groupStep_next {depth' : Nat}
    (hplain : opensLiteral (before ++ c :: tail) (byteLength before) = .ok false)
    (hdepth : depth' = if c = '(' then depth + 1 else if c = ')' then depth - 1 else depth)
    (hclose : c = ')' → depth ≠ 0) :
    scan (bytes (before ++ c :: tail)) (groupStep unterminated unmatched (before ++ c :: tail))
        finish depth (byteLength before) =
      scan (bytes (before ++ c :: tail)) (groupStep unterminated unmatched (before ++ c :: tail))
        finish depth' (byteLength (before ++ [c])) := by
  obtain ⟨byte, hbyte⟩ := exists_byte before c tail
  refine scan_next passesInside_groupStep hbyte ?_
  have hopens := byte_eq_iff (q := '(') (by decide) hbyte
  have hcloses := byte_eq_iff (q := ')') (by decide) hbyte
  rw [groupStep_of_not_opensLiteral hplain, hdepth]
  simp only [hopens, hcloses]
  split
  · rfl
  · split
    · rw [if_neg (hclose ‹_›)]
    · rfl

/-- **A search that minds groups** answers as the cursor that stands where it begins. -/
theorem scan_groupStep {after : List Char} (h : k.Between before after) :
    scan (bytes (before ++ after)) (groupStep unterminated unmatched (before ++ after)) finish
        k.depth (byteLength before) =
      .ok (k.answer unterminated unmatched finish (byteLength before) after) := by
  -- by induction on the length: what the cursor takes is taken away as a whole
  induction hn : after.length using Nat.strongRecOn generalizing before after k with
  | ind n ih =>
    subst hn
    have htakes {piece rest : List Char} {k' : Cursor} (heq : after = piece ++ rest)
        (ht : k.Takes piece rest k')
        (hscan : scan (bytes (before ++ after)) (groupStep unterminated unmatched (before ++ after))
            finish k.depth (byteLength before) =
          scan (bytes (before ++ after)) (groupStep unterminated unmatched (before ++ after))
            finish k'.depth (byteLength (before ++ piece))) :
        scan (bytes (before ++ after)) (groupStep unterminated unmatched (before ++ after)) finish
            k.depth (byteLength before) =
          .ok (k.answer unterminated unmatched finish (byteLength before) after) := by
      subst heq
      have hpos := List.length_pos_iff.mpr ht.ne_nil
      have hrest := ih rest.length (by rw [List.length_append]; omega) (h.takes ht) rfl
      rw [List.append_assoc] at hrest
      rw [hscan, hrest, Cursor.answer_append ht.run, byteLength_append]
    cases k.ahead after with
    | nil =>
      rw [List.append_nil, scan_end (no_byte before), Cursor.answer, if_neg h.outside.quoting]
    | literal opens closes =>
      refine htakes ?_ (Cursor.takes_literal h.outside opens closes)
        (scan_enclosed rfl fun _ _ => groupStep_literal
          (opensLiteral_quote _ (h.previous ▸ opens)) (closingQuote_eq_some before closes))
      rw [eq_append_of_closeLiteral closes]
      simp
    | @unclosed tail opens never =>
      obtain ⟨byte, hbyte⟩ := exists_byte before '\'' tail
      rw [scan_stop hbyte (groupStep_unclosed (opensLiteral_quote tail (h.previous ▸ opens))
          (closingQuote_eq_none before never)), h.outside.answer_unclosed opens never]
    | @opening tail =>
      have hplain : opensLiteral (before ++ '(' :: tail) (byteLength before) = .ok false :=
        opensLiteral_plain tail fun hc => absurd hc (by decide)
      exact htakes rfl (Cursor.takes_opening h.outside.quoting)
        (scan_groupStep_next hplain rfl fun hc => absurd hc (by decide))
    | @closing tail =>
      have hplain : opensLiteral (before ++ ')' :: tail) (byteLength before) = .ok false :=
        opensLiteral_plain tail fun hc => absurd hc (by decide)
      cases hd : k.depth with
      | zero =>
        obtain ⟨byte, hbyte⟩ := exists_byte before ')' tail
        have hclose := (byte_eq_iff (by decide) hbyte).mpr rfl
        rw [← hd, Cursor.answer, Cursor.next_close hd h.outside.quoting]
        refine scan_stop hbyte ?_
        rw [groupStep_of_not_opensLiteral hplain, if_neg (by rw [hclose]; decide), if_pos hclose,
          if_pos hd]
      | succ depth =>
        rw [← hd]
        refine htakes rfl (Cursor.takes_closing h.outside.quoting hd)
          (scan_groupStep_next hplain ?_ fun _ => ?_)
        · rw [hd]
          rfl
        · rw [hd]
          exact Nat.succ_ne_zero depth
    | @plain c tail ne_open ne_close apostrophe =>
      refine htakes rfl (Cursor.takes_plain h.outside ne_open ne_close apostrophe)
        (scan_groupStep_next (opensLiteral_plain tail (h.previous ▸ apostrophe)) ?_ fun hc =>
          absurd hc ne_close)
      rw [if_neg ne_open, if_neg ne_close]

end Step

/-! ### Closing parentheses -/

/-- The position of the parenthesis that closes the group opened at a position. -/
def closingParen (cs : List Char) (opening : Nat) : Except Fault (Option Nat) :=
  scan (bytes cs) (groupStep none some cs) (fun _ => none) 0 (opening + 1)

/-- **The search for a closing parenthesis ends**, wherever it begins, and finds one further on. -/
theorem exists_closingParen (cs : List Char) (opening : Nat) :
    ∃ close?, closingParen cs opening = .ok close? ∧
      ∀ close ∈ close?, opening < close ∧ (bytes cs)[close]? = some ')'.toUInt8 := by
  refine exists_scan (fun depth p byte hlow hbyte => ?_) (fun _ _ h => by simp at h)
    (Nat.le_refl (opening + 1))
  obtain ⟨opens, hopens, -⟩ := exists_opensLiteral cs p
  cases opens with
  | true =>
    obtain ⟨close?, hcloses, hclose⟩ := exists_closingQuote cs p
    cases close? with
    | none => exact .inl ⟨none, groupStep_unclosed hopens hcloses, by simp⟩
    | some close =>
      have hlt := (hclose close rfl).1
      exact .inr ⟨depth, close + 1, groupStep_literal hopens hcloses, by omega⟩
  | false =>
    rw [groupStep_of_not_opensLiteral hopens]
    split
    · exact .inr ⟨_, _, rfl, Nat.lt_succ_self p⟩
    · split
      · rename_i hclose
        split
        · refine .inl ⟨some p, rfl, fun close heq => ?_⟩
          obtain rfl := Option.some.inj heq
          exact ⟨hlow, hclose ▸ hbyte⟩
        · exact .inr ⟨_, _, rfl, Nat.lt_succ_self p⟩
      · exact .inr ⟨_, _, rfl, Nat.lt_succ_self p⟩

/-- **The closing parenthesis** is the one at which the text after the opening one splits. -/
theorem closingParen_eq (before after : List Char) :
    closingParen (before ++ '(' :: after) (byteLength before) =
      .ok ((closeGroup Cursor.inGroup after).map fun (inside, _) =>
        byteLength (before ++ '(' :: inside)) := by
  have hbetween : Cursor.inGroup.Between (before ++ ['(']) after :=
    ⟨List.getLast?_concat.symm, Cursor.outsideBefore_of_outside rfl _⟩
  have hlength (inside : List Char) : byteLength (before ++ '(' :: inside) =
      byteLength before + 1 + byteLength inside := by
    rw [byteLength_append, byteLength_cons, Nat.add_assoc]
    rfl
  have h : _ = Except.ok (Cursor.inGroup.answer none some (fun _ => none) _ after) :=
    scan_groupStep hbetween
  rw [Cursor.answer_closeGroup, hlength, List.append_assoc, List.singleton_append] at h
  simp only [hlength]
  exact h

/-! ### The check that everything closes -/

/-- Checks that every literal and every group of a text ends. -/
def checkBalance (cs : List Char) : Except Fault (Except Malformed Unit) :=
  scan (bytes cs) (groupStep (.error .unterminatedLiteral) (fun p => .error (.unmatchedClose p)) cs)
    (fun depth => if 0 < depth then .error .unclosedGroup else .ok ()) 0 0

/-- **The check ends** and answers as the cursor does. -/
theorem checkBalance_eq (cs : List Char) :
    checkBalance cs = .ok (FeatureQuery.checkBalance cs) := by
  have hbetween : Cursor.start.Between [] cs := ⟨rfl, Cursor.outsideBefore_of_outside rfl _⟩
  rw [FeatureQuery.checkBalance, ← Cursor.answer_checkBalance]
  exact scan_groupStep hbetween

end Bytes
end FeatureQuery
