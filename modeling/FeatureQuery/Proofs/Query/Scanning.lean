import FeatureQuery.Proofs.Query.Splitting
import FeatureQuery.Text.Literal

/-!
# What the search for an operator finds

Read from the left, a text falls into **pieces**: characters that stand for themselves, literals,
and groups, which are made of pieces again. `WholePieces` says of a text that nothing else is in it:
each literal and each group is there to its end, and no parenthesis closes nothing. An operator
stands at a position (`OperatorAt`) if what comes before it is made of whole pieces, it is the
longest operator of its tier there, and no letter touches it if it is a word.

The search finds the first position of which this is true, and nothing if there is none
(`findOperator_exact`). The cursor reads whole pieces and comes out of them where it went in
(`WholePieces.exists_run`), and what it reads between two places outside all groups and literals is
made of whole pieces (`wholePieces_of_run`).
-/

namespace FeatureQuery

/-! ### Pieces -/

/-- What may stand in a literal: other characters than quotes, and quotes in pairs. -/
inductive LiteralBody : List Char → Prop where
  /-- Nothing. -/
  | nil : LiteralBody []
  /-- Two quotes, which stand for one. -/
  | pair {body : List Char} (rest : LiteralBody body) : LiteralBody ('\'' :: '\'' :: body)
  /-- Another character. -/
  | char {c : Char} {body : List Char} (ne_quote : c ≠ '\'') (rest : LiteralBody body) :
      LiteralBody (c :: body)

/-- Between the character before it and the one after it, the text is made of whole pieces. -/
inductive WholePieces : Option Char → List Char → Option Char → Prop where
  /-- No piece. -/
  | nil {previous next : Option Char} : WholePieces previous [] next
  /-- A character that stands for itself: no parenthesis, and no quote that opens a literal. -/
  | plain {previous next : Option Char} {c : Char} {cs : List Char} (ne_open : c ≠ '(')
      (ne_close : c ≠ ')') (apostrophe : c = '\'' → opensLiteral previous = false)
      (rest : WholePieces (some c) cs next) : WholePieces previous (c :: cs) next
  /-- A literal, to the quote that no other quote follows. -/
  | literal {previous next : Option Char} {body cs : List Char}
      (opens : opensLiteral previous = true) (inside : LiteralBody body)
      (ends : cs.head?.or next ≠ some '\'') (rest : WholePieces (some '\'') cs next) :
      WholePieces previous ('\'' :: (body ++ '\'' :: cs)) next
  /-- A group, to the parenthesis that closes it. -/
  | group {previous next : Option Char} {inside cs : List Char}
      (body : WholePieces (some '(') inside (some ')'))
      (rest : WholePieces (some ')') cs next) :
      WholePieces previous ('(' :: (inside ++ ')' :: cs)) next

/-- An operator of the tier stands in the text, outside all groups and literals, with nothing before
it that does not end. -/
structure OperatorAt (tier : Tier) (cs : List Char) (s : Split) : Prop where
  /-- The split is one of the text. -/
  whole_eq : s.whole = cs
  /-- Whole pieces stand before the operator. -/
  pieces : WholePieces none s.before s.operator.text.toList.head?
  /-- The operator is one of the tier. -/
  tier_eq : s.operator.tier = tier
  /-- No longer operator of the tier stands there. -/
  longest : ∀ op : Operator, op.tier = tier →
    op.text.toList <+: s.operator.text.toList ++ s.after → op.text.length ≤ s.operator.text.length
  /-- No letter touches a word. -/
  alone : s.operator.isWord = true →
    s.before.getLast?.any Char.isAlpha = false ∧ s.after.head?.any Char.isAlpha = false

/-! ### The cursor and pieces -/

namespace Cursor

/-- No literal is open, and the character to come does not go on with one. -/
structure OutsideBefore (k : Cursor) (next : Option Char) : Prop where
  quoting : k.quoting ≠ .inside
  ended : k.quoting = .ended → next ≠ some '\''

theorem outsideBefore_of_outside {k : Cursor} (h : k.quoting = .outside) (next : Option Char) :
    k.OutsideBefore next :=
  ⟨by simp [h], by simp [h]⟩

theorem outsideBefore_of_ended {k : Cursor} (h : k.quoting = .ended) {next : Option Char}
    (hnext : next ≠ some '\'') : k.OutsideBefore next :=
  ⟨by simp [h], fun _ => hnext⟩

variable {k k' : Cursor} {c : Char} {cs body : List Char} {next : Option Char}

/-- A character that stands for itself is passed over. -/
theorem OutsideBefore.next_plain (h : k.OutsideBefore (some c)) (ne_open : c ≠ '(')
    (ne_close : c ≠ ')') (apostrophe : c = '\'' → opensLiteral k.previous = false) :
    k.next c = some ⟨some c, k.depth, .outside⟩ := by
  have hq : k.quoting.next k.previous c = .outside := by
    by_cases hc : c = '\''
    · cases hk : k.quoting with
      | outside => simp [Quoting.next, apostrophe hc]
      | inside => exact absurd hk h.quoting
      | ended => exact absurd (congrArg some hc) (h.ended hk)
    · exact Quoting.next_eq_outside h.quoting hc
  simp [Cursor.next, hq, ne_open, ne_close]

/-- A quote that opens a literal leads into it. -/
theorem OutsideBefore.next_quote (h : k.OutsideBefore (some '\''))
    (opens : opensLiteral k.previous = true) :
    k.next '\'' = some ⟨some '\'', k.depth, .inside⟩ := by
  cases hk : k.quoting with
  | outside => simp [Cursor.next, hk, Quoting.next, opens]
  | inside => exact absurd hk h.quoting
  | ended => exact absurd rfl (h.ended hk)

theorem next_close_succ {depth : Nat} (hq : k.quoting ≠ .inside) (hd : k.depth = depth + 1) :
    k.next ')' = some ⟨some ')', depth, .outside⟩ := by
  simp [Cursor.next, Quoting.next_eq_outside hq, hd]

theorem next_inside (hk : k.quoting = .inside) :
    k.next c = some ⟨some c, k.depth, if c = '\'' then .ended else .inside⟩ := by
  by_cases hc : c = '\'' <;> simp [Cursor.next, Quoting.next, hk, hc]

theorem next_ended_quote (hk : k.quoting = .ended) :
    k.next '\'' = some ⟨some '\'', k.depth, .inside⟩ := by
  simp [Cursor.next, Quoting.next, hk]

end Cursor

section Reading

open Cursor

variable {k k' : Cursor} {cs : List Char} {previous next : Option Char}

/-- What stands in a literal does not lead out of it. -/
theorem LiteralBody.exists_run {body : List Char} (h : LiteralBody body)
    (hk : k.quoting = .inside) :
    ∃ k', k.run body = some k' ∧ k'.depth = k.depth ∧ k'.quoting = .inside := by
  induction h generalizing k with
  | nil => exact ⟨k, rfl, rfl, hk⟩
  | @pair body _ ih =>
    obtain ⟨k', hrun, hd, hq⟩ := ih (k := ⟨some '\'', k.depth, .inside⟩) rfl
    refine ⟨k', ?_, hd, hq⟩
    rw [Cursor.run, next_inside hk, Option.bind_some, if_pos rfl, Cursor.run, next_ended_quote rfl]
    exact hrun
  | @char c body ne_quote _ ih =>
    obtain ⟨k', hrun, hd, hq⟩ := ih (k := ⟨some c, k.depth, .inside⟩) rfl
    refine ⟨k', ?_, hd, hq⟩
    rw [Cursor.run, next_inside hk, Option.bind_some, if_neg ne_quote]
    exact hrun

/-- **Whole pieces are read** from the outside of all literals to the outside, and leave the depth
as it was. -/
theorem WholePieces.exists_run (h : WholePieces previous cs next)
    (hprevious : k.previous = previous)
    (hk : k.OutsideBefore (cs.head?.or next)) :
    ∃ k', k.run cs = some k' ∧ k'.depth = k.depth ∧ k'.OutsideBefore next := by
  induction h generalizing k with
  | nil => exact ⟨k, rfl, rfl, hk⟩
  | @plain previous next c cs ne_open ne_close apostrophe _ ih =>
    obtain ⟨k', hrun, hd, hout⟩ := ih (k := ⟨some c, k.depth, .outside⟩) rfl
      (outsideBefore_of_outside rfl _)
    refine ⟨k', ?_, hd, hout⟩
    rw [Cursor.run, hk.next_plain ne_open ne_close (hprevious ▸ apostrophe)]
    exact hrun
  | @literal previous next body cs opens inside ends _ ih =>
    obtain ⟨k₁, hbody, hd₁, hq₁⟩ := inside.exists_run (k := ⟨some '\'', k.depth, .inside⟩) rfl
    obtain ⟨k', hrun, hd, hout⟩ := ih (k := ⟨some '\'', k.depth, .ended⟩) rfl
      (outsideBefore_of_ended rfl ends)
    refine ⟨k', ?_, hd, hout⟩
    have hclose : k₁.next '\'' = some ⟨some '\'', k.depth, .ended⟩ := by
      rw [next_inside hq₁, if_pos rfl, hd₁]
    rw [Cursor.run, hk.next_quote (hprevious ▸ opens), Option.bind_some, Cursor.run_append, hbody,
      Option.bind_some, Cursor.run, hclose]
    exact hrun
  | @group previous next inside cs _ _ ihInside ih =>
    obtain ⟨k₁, hinside, hd₁, hout₁⟩ := ihInside (k := ⟨some '(', k.depth + 1, .outside⟩) rfl
      (outsideBefore_of_outside rfl _)
    obtain ⟨k', hrun, hd, hout⟩ := ih (k := ⟨some ')', k.depth, .outside⟩) rfl
      (outsideBefore_of_outside rfl _)
    refine ⟨k', ?_, hd, hout⟩
    rw [Cursor.run, next_open hk.quoting, Option.bind_some, Cursor.run_append, hinside,
      Option.bind_some, Cursor.run, next_close_succ hout₁.quoting hd₁]
    exact hrun

/-- A literal out of which the cursor comes is there to its end. -/
theorem exists_literal_of_run (hk : k.quoting = .inside) (hrun : k.run cs = some k')
    (hout : k'.OutsideBefore next) :
    ∃ body rest, cs = body ++ '\'' :: rest ∧ LiteralBody body ∧ rest.head?.or next ≠ some '\'' ∧
      Cursor.run ⟨some '\'', k.depth, .ended⟩ rest = some k' := by
  fun_induction Text.closeLiteral cs generalizing k with
  | case1 =>
    cases hrun
    exact absurd hk hout.quoting
  | case2 cs ih =>
    rw [Cursor.run, next_inside hk, Option.bind_some, if_pos rfl, Cursor.run,
      next_ended_quote rfl, Option.bind_some] at hrun
    obtain ⟨body, rest, rfl, hbody, hends, hrest⟩ := ih rfl hrun
    exact ⟨'\'' :: '\'' :: body, rest, rfl, hbody.pair, hends, hrest⟩
  | case3 cs hne =>
    rw [Cursor.run, next_inside hk, Option.bind_some, if_pos rfl] at hrun
    refine ⟨[], cs, rfl, .nil, ?_, hrun⟩
    cases cs with
    | nil =>
      cases hrun
      exact hout.ended rfl
    | cons c cs =>
      intro hquote
      exact hne cs rfl (by simpa using hquote)
  | case4 c cs _ hc ih =>
    rw [Cursor.run, next_inside hk, Option.bind_some, if_neg hc] at hrun
    obtain ⟨body, rest, rfl, hbody, hends, hrest⟩ := ih rfl hrun
    exact ⟨c :: body, rest, rfl, hbody.char hc, hends, hrest⟩

/-- A group out of which the cursor comes is there to its end. -/
theorem exists_group_of_run (hrun : Cursor.run ⟨some '(', 1, .outside⟩ cs = some k')
    (hd : k'.depth = 0) :
    ∃ inside rest k₁, cs = inside ++ ')' :: rest ∧ Cursor.inGroup.run inside = some k₁ ∧
      k₁.depth = 0 ∧ k₁.quoting ≠ .inside ∧
      Cursor.run ⟨some ')', 0, .outside⟩ rest = some k' := by
  have hshift : Cursor.Shifted 1 Cursor.inGroup ⟨some '(', 1, .outside⟩ :=
    Cursor.shifted_after 1 0 '(' .outside
  cases hclose : closeGroup Cursor.inGroup cs with
  | none =>
    -- the cursor would come to the end of the text with the group still open
    obtain ⟨k₁, hk₁⟩ := exists_run_of_closeGroup_eq_none hclose
    obtain ⟨l, hl, hs⟩ := hshift.run hk₁
    obtain rfl := Option.some.inj (hrun.symm.trans hl)
    have hdeep := hs.depth
    omega
  | some parts =>
    obtain ⟨inside, rest⟩ := parts
    obtain rfl := eq_append_of_closeGroup hclose
    obtain ⟨k₁, hinside, hstop⟩ := exists_run_of_closeGroup hclose
    obtain ⟨hd₁, hq₁⟩ := Cursor.outside_of_next_eq_none hstop
    obtain ⟨l, hl, hs⟩ := hshift.run hinside
    have hlq : l.quoting ≠ .inside := hs.quoting ▸ hq₁
    have hld : l.depth = 0 + 1 := by rw [hs.depth, hd₁]
    rw [Cursor.run_append, hl, Option.bind_some, Cursor.run, next_close_succ hlq hld] at hrun
    exact ⟨inside, rest, k₁, rfl, hinside, hd₁, hq₁, hrun⟩

/-- A piece between two characters, and the rest, are shorter than the text. -/
theorem length_enclosed (first last : Char) (inside rest : List Char) :
    (first :: (inside ++ last :: rest)).length = inside.length + rest.length + 2 := by
  simp only [List.length_cons, List.length_append]
  omega

/-- **What is read between two places outside all groups and literals** is made of whole pieces. -/
theorem wholePieces_of_run (hrun : k.run cs = some k') (hd : k.depth = 0) (hd' : k'.depth = 0)
    (hk : k.OutsideBefore (cs.head?.or next)) (hk' : k'.OutsideBefore next) :
    WholePieces k.previous cs next := by
  -- by induction on the length: the piece at the start is taken away as a whole
  induction hn : cs.length using Nat.strongRecOn generalizing cs k k' next with
  | ind n ih =>
    subst hn
    cases cs with
    | nil => exact .nil
    | cons c cs =>
      obtain ⟨k₁, hnext, htail⟩ := Option.bind_eq_some_iff.mp hrun
      by_cases hopen : c = '('
      · subst hopen
        rw [next_open hk.quoting, hd, Option.some.injEq] at hnext
        subst hnext
        obtain ⟨inside, rest, k₂, rfl, hinside, hd₂, hq₂, hrest⟩ := exists_group_of_run htail hd'
        have hlength := length_enclosed '(' ')' inside rest
        refine .group ?_ ?_
        · exact ih inside.length (by omega) hinside rfl hd₂
            (outsideBefore_of_outside rfl _) ⟨hq₂, fun _ => by simp⟩ rfl
        · exact ih rest.length (by omega) hrest rfl hd'
            (outsideBefore_of_outside rfl _) hk' rfl
      · by_cases hquote : c = '\'' ∧ opensLiteral k.previous = true
        · obtain ⟨rfl, hopens⟩ := hquote
          rw [hk.next_quote hopens, hd, Option.some.injEq] at hnext
          subst hnext
          obtain ⟨body, rest, rfl, hbody, hends, hrest⟩ := exists_literal_of_run rfl htail hk'
          have hlength := length_enclosed '\'' '\'' body rest
          refine .literal hopens hbody hends ?_
          exact ih rest.length (by omega) hrest rfl hd'
            (outsideBefore_of_ended rfl hends) hk' rfl
        · have happostrophe : c = '\'' → opensLiteral k.previous = false := by
            intro hc
            simpa [hc] using hquote
          have hclose : c ≠ ')' := by
            rintro rfl
            rw [next_close hd hk.quoting] at hnext
            cases hnext
          rw [hk.next_plain hopen hclose happostrophe, hd, Option.some.injEq] at hnext
          subst hnext
          refine .plain hopen hclose happostrophe ?_
          exact ih cs.length (by simp) htail rfl hd' (outsideBefore_of_outside rfl _) hk' rfl

end Reading

/-! ### Operators at a place -/

/-- No operator of a tier begins with an earlier one. -/
theorem Tier.pairwise_operators (tier : Tier) :
    tier.operators.Pairwise fun op later => ¬ op.text.toList <+: later.text.toList := by
  cases tier <;> decide

theorem Operator.text_injective {op op' : Operator} (h : op.text = op'.text) : op = op' := by
  rcases op with (_ | _) | _ | _ | (_ | _ | _ | _ | _ | _) <;>
    rcases op' with (_ | _) | _ | _ | (_ | _ | _ | _ | _ | _) <;>
      simp [Operator.text, Connective.text, Comparison.text] at h ⊢

section Token

variable {tier : Tier} {cs rest : List Char} {op : Operator} {previous : Option Char}

/-- The first operator of a tier that a text begins with is the longest one. -/
theorem length_le_of_findSome? {op' : Operator}
    (h : (tier.operators.findSome? fun op => (op.strip? cs).map fun rest => (op, rest)) =
      some (op, rest)) (htier : op'.tier = tier) (hpre : op'.text.toList <+: cs) :
    op'.text.length ≤ op.text.length := by
  obtain ⟨before, found, after, hlist, hfound, hbefore⟩ := List.findSome?_eq_some_iff.mp h
  obtain ⟨_, hstrip, heq⟩ := Option.map_eq_some_iff.mp hfound
  cases heq
  have hcs : op.text.toList <+: cs := ⟨rest, (Operator.eq_append_of_strip? hstrip).symm⟩
  obtain ⟨rest', hrest'⟩ := hpre
  have hmem : op' ∈ before ++ op :: after := hlist ▸ Tier.mem_operators_iff.mpr htier
  rcases List.mem_append.mp hmem with hmem | hmem
  · -- an operator before the one that is found is not there
    have hnone := hbefore op' hmem
    have hstrip' : op'.strip? cs = some rest' := Text.after?_eq_some_iff.mpr hrest'.symm
    simp [hstrip'] at hnone
  · rcases List.mem_cons.mp hmem with rfl | hmem
    · exact Nat.le_refl _
    · refine Nat.le_of_not_lt fun hlt => ?_
      have hpairs := hlist ▸ tier.pairwise_operators
      have hnot := (List.pairwise_cons.mp (List.pairwise_append.mp hpairs).2.1).1 op' hmem
      refine hnot (List.prefix_of_prefix_length_le hcs ⟨rest', hrest'⟩ ?_)
      rw [String.length_toList, String.length_toList]
      omega

/-- **The operator that is read** is the longest one of its tier, and no letter touches it if it is
a word. -/
theorem Tier.read?_eq_some_iff :
    tier.read? previous cs = some (op, rest) ↔
      op.tier = tier ∧ cs = op.text.toList ++ rest ∧
        (∀ op' : Operator, op'.tier = tier → op'.text.toList <+: cs →
          op'.text.length ≤ op.text.length) ∧
        (op.isWord = true → Operator.touchesLetter previous rest.head? = false) := by
  constructor
  · intro h
    obtain ⟨htier, hcs, halone⟩ := Tier.eq_of_read? h
    refine ⟨htier, hcs, fun op' => ?_, halone⟩
    rw [Tier.read?] at h
    obtain ⟨⟨found, after⟩, hfind, h⟩ := Option.bind_eq_some_iff.mp h
    simp only [Option.ite_none_left_eq_some, Option.some.injEq, Prod.mk.injEq] at h
    obtain ⟨-, rfl, rfl⟩ := h
    exact length_le_of_findSome? hfind
  · rintro ⟨htier, hcs, hlongest, halone⟩
    have hstrip : op.strip? cs = some rest := Text.after?_eq_some_iff.mpr hcs
    have hpre : op.text.toList <+: cs := ⟨rest, hcs.symm⟩
    rw [Tier.read?]
    cases hfind : tier.operators.findSome? fun op => (op.strip? cs).map fun rest => (op, rest) with
    | none =>
      have hnone := List.findSome?_eq_none_iff.mp hfind op (Tier.mem_operators_iff.mpr htier)
      simp [hstrip] at hnone
    | some found =>
      obtain ⟨found, after⟩ := found
      obtain ⟨candidate, hmem, hmap⟩ := List.exists_of_findSome?_eq_some hfind
      obtain ⟨_, hstrip', heq⟩ := Option.map_eq_some_iff.mp hmap
      cases heq
      -- both are the longest, so they are one
      have hcs' := Operator.eq_append_of_strip? hstrip'
      have hle := length_le_of_findSome? hfind htier hpre
      have hge := hlongest found (Tier.mem_operators_iff.mp hmem) ⟨after, hcs'.symm⟩
      obtain ⟨htext, rfl⟩ := List.append_inj (hcs.symm.trans hcs')
        (by rw [String.length_toList, String.length_toList]; omega)
      obtain rfl := Operator.text_injective (String.toList_inj.mp htext)
      simpa using halone

/-- Outside all groups and literals an operator is found wherever one can be read. -/
theorem operatorAt?_of_read? {k : Cursor} {found : Operator × List Char} (hd : k.depth = 0)
    (hq : k.quoting ≠ .inside) (h : tier.read? k.previous cs = some found) :
    operatorAt? tier k cs = some found := by
  obtain ⟨op, rest⟩ := found
  obtain ⟨c, tail, htext⟩ := List.exists_cons_of_ne_nil op.text_ne_nil
  have hquote : c ≠ '\'' := by
    rintro rfl
    exact op.quote_notMem_text (by simp [htext])
  have hcs : cs = c :: (tail ++ rest) := by
    rw [(Tier.eq_of_read? h).2.1, htext, List.cons_append]
  have hplain : k.isPlain c = true := by
    simp [Cursor.isPlain, hd, Quoting.next_eq_outside hq hquote]
  rw [hcs, operatorAt?, if_pos hplain, ← hcs]
  exact h

end Token

/-! ### The first operator -/

section First

variable {tier : Tier} {cs : List Char} {s s' : Split}

/-- **What is found stands there.** -/
theorem operatorAt_of_findOperator (h : findOperator tier cs = some s) : OperatorAt tier cs s := by
  obtain ⟨k, hrun, hat⟩ := exists_run_of_findOperatorFrom h
  obtain ⟨hd, hq, hread⟩ := read?_of_operatorAt? hat
  obtain ⟨htier, -, hlongest, halone⟩ := Tier.read?_eq_some_iff.mp hread
  have hprevious : k.previous = s.before.getLast? := by
    rw [Cursor.previous_of_run hrun]
    exact Option.or_none
  have hquote : s.operator.text.toList.head? ≠ some '\'' := fun hhead =>
    s.operator.quote_notMem_text (List.mem_of_head? hhead)
  refine ⟨eq_append_of_findOperator h, ?_, htier, hlongest, fun hword => ?_⟩
  · exact wholePieces_of_run hrun rfl hd (Cursor.outsideBefore_of_outside rfl _)
      ⟨hq, fun _ => hquote⟩
  · have htouch := halone hword
    rwa [Operator.touchesLetter, Bool.or_eq_false_iff, hprevious] at htouch

/-- Where an operator can be read, one is found there or before. -/
theorem exists_findOperatorFrom {k k' : Cursor} {ds : List Char} (hrun : k.run cs = some k')
    (hat : (operatorAt? tier k' ds).isSome) :
    ∃ s, findOperatorFrom tier k (cs ++ ds) = some s ∧ s.before <+: cs := by
  induction cs generalizing k with
  | nil =>
    cases hrun
    obtain ⟨⟨op, rest⟩, hread⟩ := Option.isSome_iff_exists.mp hat
    refine ⟨⟨[], op, rest⟩, ?_, List.nil_prefix⟩
    cases ds with
    | nil => simp [operatorAt?] at hread
    | cons d ds => rw [List.nil_append, findOperatorFrom, hread]
  | cons c cs ih =>
    obtain ⟨k₁, hk₁, htail⟩ := Option.bind_eq_some_iff.mp hrun
    rw [List.cons_append, findOperatorFrom]
    cases hhere : operatorAt? tier k (c :: (cs ++ ds)) with
    | some found => exact ⟨_, rfl, List.nil_prefix⟩
    | none =>
      obtain ⟨s, hs, hpre⟩ := ih htail
      exact ⟨_, by rw [hk₁, Option.bind_some, hs, Option.map_some],
        (List.prefix_cons_inj c).mpr hpre⟩

/-- **What stands in the text is found**, unless another operator of the tier stands before it. -/
theorem OperatorAt.exists_findOperator (h : OperatorAt tier cs s) :
    ∃ found, findOperator tier cs = some found ∧ found.before <+: s.before := by
  obtain ⟨k, hrun, hd, hout⟩ := h.pieces.exists_run (k := Cursor.start) rfl
    (Cursor.outsideBefore_of_outside rfl _)
  have hprevious : k.previous = s.before.getLast? := by
    rw [Cursor.previous_of_run hrun]
    exact Option.or_none
  have hread : tier.read? k.previous (s.operator.text.toList ++ s.after) =
      some (s.operator, s.after) := by
    refine Tier.read?_eq_some_iff.mpr ⟨h.tier_eq, rfl, h.longest, fun hword => ?_⟩
    rw [Operator.touchesLetter, Bool.or_eq_false_iff, hprevious]
    exact h.alone hword
  have hat := operatorAt?_of_read? hd hout.quoting hread
  rw [← h.whole_eq, Split.whole, List.append_assoc]
  exact exists_findOperatorFrom hrun (by rw [hat, Option.isSome_some])

/-- One operator stands at a place. -/
theorem OperatorAt.eq_of_before_eq (h : OperatorAt tier cs s) (h' : OperatorAt tier cs s')
    (heq : s.before = s'.before) : s = s' := by
  obtain ⟨before, op, after⟩ := s
  obtain ⟨before', op', after'⟩ := s'
  obtain rfl : before = before' := heq
  have hwhole : op.text.toList ++ after = op'.text.toList ++ after' := by
    have hsame := h.whole_eq.trans h'.whole_eq.symm
    rw [Split.whole, Split.whole, List.append_assoc, List.append_assoc] at hsame
    exact List.append_cancel_left hsame
  have hge := h.longest op' h'.tier_eq ⟨after', hwhole.symm⟩
  have hle := h'.longest op h.tier_eq ⟨after, hwhole⟩
  obtain ⟨htext, rfl⟩ := List.append_inj hwhole
    (by rw [String.length_toList, String.length_toList]; exact Nat.le_antisymm hle hge)
  rw [Operator.text_injective (String.toList_inj.mp htext)]

theorem Text.byteLength_le_of_prefix {cs ds : List Char} (h : cs <+: ds) :
    Text.byteLength cs ≤ Text.byteLength ds := by
  obtain ⟨rest, rfl⟩ := h
  rw [Text.byteLength_append]
  exact Nat.le_add_right _ _

/-- A piece at the start of a text is told by its length. -/
theorem Text.eq_of_prefix_of_byteLength_le {cs ds : List Char} (h : cs <+: ds)
    (hle : Text.byteLength ds ≤ Text.byteLength cs) : cs = ds := by
  obtain ⟨rest, rfl⟩ := h
  cases rest with
  | nil => exact (List.append_nil cs).symm
  | cons c rest =>
    have hpos := c.utf8Size_pos
    rw [Text.byteLength_append, Text.byteLength_cons] at hle
    omega

/-- **The operator that is found** is the first of those that stand in the text. -/
theorem findOperator_eq_some_iff :
    findOperator tier cs = some s ↔
      OperatorAt tier cs s ∧ ∀ s', OperatorAt tier cs s' → s.start ≤ s'.start := by
  constructor
  · intro h
    refine ⟨operatorAt_of_findOperator h, fun s' hs' => ?_⟩
    obtain ⟨found, hfound, hpre⟩ := hs'.exists_findOperator
    obtain rfl := Option.some.inj (h.symm.trans hfound)
    exact Text.byteLength_le_of_prefix hpre
  · rintro ⟨hs, hfirst⟩
    obtain ⟨found, hfound, hpre⟩ := hs.exists_findOperator
    have hstands := operatorAt_of_findOperator hfound
    have hbefore := Text.eq_of_prefix_of_byteLength_le hpre (hfirst found hstands)
    rw [hfound, hstands.eq_of_before_eq hs hbefore]

/-- **Nothing is found** where no operator of the tier stands. -/
theorem findOperator_eq_none_iff :
    findOperator tier cs = none ↔ ∀ s, ¬ OperatorAt tier cs s := by
  constructor
  · intro h s hs
    obtain ⟨found, hfound, -⟩ := hs.exists_findOperator
    rw [h] at hfound
    cases hfound
  · intro h
    cases hfind : findOperator tier cs with
    | none => rfl
    | some s => exact absurd (operatorAt_of_findOperator hfind) (h s)

end First

/-! ### Positions in bytes -/

theorem Text.utf8ByteSize_ofList (cs : List Char) :
    (String.ofList cs).utf8ByteSize = Text.byteLength cs := by
  induction cs with
  | nil => rfl
  | cons c cs ih =>
    rw [String.ofList_cons, String.utf8ByteSize_append, String.utf8ByteSize_singleton, ih,
      Text.byteLength_cons]

theorem Text.extract_between (before middle after : ByteArray) :
    (before ++ middle ++ after).extract before.size (before.size + middle.size) = middle := by
  have hsize : (before ++ middle).size = before.size + middle.size := ByteArray.size_append
  rw [← hsize, ByteArray.extract_append_size_left, ByteArray.extract_append_eq_right rfl hsize]

/-- **From its start to its stop** a split has the bytes of its operator. -/
theorem Split.extract_eq {text : String} {s : Split} (h : s.whole = text.toList) :
    text.toUTF8.extract s.start s.stop = s.operator.text.toUTF8 := by
  have htext : text = String.ofList s.before ++ s.operator.text ++ String.ofList s.after := by
    rw [← String.toList_inj, ← h, Split.whole]
    simp
  have hbefore := Text.utf8ByteSize_ofList s.before
  have hop := Text.utf8ByteSize_ofList s.operator.text.toList
  rw [String.ofList_toList] at hop
  rw [Split.stop, Split.start, ← hbefore, ← hop, htext, ← String.size_toByteArray,
    ← String.size_toByteArray]
  simp only [String.toUTF8, String.toByteArray_append]
  exact Text.extract_between _ _ _

/-- **The search is exact.** It finds the operator of the tier with the smallest position of all
that stand in the text outside its groups and literals, and nothing if there is none; the bytes of
the text at its positions are those of the operator. The next operator is the one found in the
weakest tier in which one is found. -/
theorem findOperator_exact (text : String) :
    (∀ (tier : Tier) (s : Split), findOperator tier text.toList = some s ↔
        OperatorAt tier text.toList s ∧
          ∀ s', OperatorAt tier text.toList s' → s.start ≤ s'.start) ∧
      (∀ tier : Tier, findOperator tier text.toList = none ↔
        ∀ s, ¬ OperatorAt tier text.toList s) ∧
      (∀ (tier : Tier) (s : Split), findOperator tier text.toList = some s →
        text.toUTF8.extract s.start s.stop = s.operator.text.toUTF8) ∧
      (∀ s : Split, findNextOperator text.toList = some s ↔
        ∃ tier : Tier, findOperator tier text.toList = some s ∧
          ∀ weaker : Tier, weaker.rank < tier.rank → findOperator weaker text.toList = none) ∧
      (findNextOperator text.toList = none ↔
        ∀ tier : Tier, findOperator tier text.toList = none) := by
  refine ⟨fun _ _ => findOperator_eq_some_iff, fun _ => findOperator_eq_none_iff,
    fun _ _ h => Split.extract_eq (eq_append_of_findOperator h), fun s => ?_,
    findNextOperator_eq_none_iff⟩
  constructor
  · intro h
    exact ⟨s.operator.tier, findNextOperator_eq_some_iff.mp h⟩
  · rintro ⟨tier, hfind, hweaker⟩
    obtain rfl := tier_of_findOperatorFrom hfind
    exact findNextOperator_eq_some_iff.mpr ⟨hfind, hweaker⟩

/-- A group with words and a parenthesis in it, an apostrophe, a name that ends in a word, and a
letter of two bytes come before the operator that is found. -/
theorem findOperator_exact_cadiz :
    let text := "(a or 'b) or ''')c <> Cádiz'mayor or x"
    let s : Split := ⟨"(a or 'b) or ''')c <> Cádiz'mayor ".toList, .join .or, " x".toList⟩
    findOperator .logical text.toList = some s ∧ s.start = 35 ∧ s.stop = 37 ∧
      OperatorAt .logical text.toList s ∧ text.toUTF8.extract 35 37 = "or".toUTF8 := by
  intro text s
  have hfind : findOperator .logical text.toList = some s := by decide +kernel
  have hstart : s.start = 35 := by decide +kernel
  have hstop : s.stop = 37 := by decide +kernel
  obtain ⟨hfound, -, hbytes, -⟩ := findOperator_exact text
  have hor := hbytes .logical s hfind
  rw [hstart, hstop] at hor
  exact ⟨hfind, hstart, hstop, ((hfound .logical s).mp hfind).1, hor⟩

end FeatureQuery
