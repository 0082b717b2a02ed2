import FeatureQuery.Proofs.Query.Apart

/-!
# Where composed texts split

A text that is put together from balanced pieces, each apart from the next, splits where it was put
together: at an operator between two pieces, if the first holds none of its tier and none of a
weaker tier, and the second none of a weaker tier (`Operator.Splits.findNextOperator_eq`). An
operator in a group never counts (`findOperator_group`).
-/

namespace FeatureQuery

/-! ### Groups -/

/-- Inside a group nothing is found. -/
theorem findOperatorFrom_inGroup (tier : Tier) {n : Nat} {k l k' : Cursor}
    (h : Cursor.Shifted (n + 1) k l) {cs : List Char} (hk : k.run cs = some k') :
    ∃ l', l.run cs = some l' ∧ Cursor.Shifted (n + 1) k' l' ∧ ∀ ds,
      findOperatorFrom tier l (cs ++ ds) =
        (findOperatorFrom tier l' ds).map (Split.prepend cs) := by
  induction cs generalizing k l with
  | nil =>
    cases hk
    exact ⟨l, rfl, h, fun ds => by simp⟩
  | cons c cs ih =>
    obtain ⟨k₁, hk₁, hrun⟩ := Option.bind_eq_some_iff.mp hk
    obtain ⟨l₁, hl₁, h₁⟩ := h.next hk₁
    obtain ⟨l', hl', h', hfind⟩ := ih h₁ hrun
    refine ⟨l', by simp [Cursor.run, hl₁, hl'], h', fun ds => ?_⟩
    have hdeep : l.depth ≠ 0 := by
      rw [h.depth]
      omega
    rw [List.cons_append, findOperatorFrom]
    simp only [operatorAt?, Cursor.isPlain, hdeep, decide_false, Bool.false_and, Bool.false_eq_true,
      if_false, hl₁, Option.bind_some, hfind ds, Option.map_map]
    rfl

/-- **A group is passed over.** -/
theorem findOperator_group {tier : Tier} {cs : List Char} (hc : Balanced cs) :
    findOperator tier ('(' :: cs ++ [')']) = none := by
  obtain ⟨k, hk, hkd, hkq⟩ := hc
  obtain ⟨l, hl, hs, hfind⟩ := findOperatorFrom_inGroup tier (Cursor.shifted_open 1) hk
  have hread : ∀ rest, operatorAt? tier Cursor.start ('(' :: rest) = none := by
    intro rest
    cases tier <;> rfl
  have hclose : findOperatorFrom tier l [')'] = none := by
    have hdeep : l.isPlain ')' = false := by simp [Cursor.isPlain, hs.depth, hkd]
    rw [findOperatorFrom, operatorAt?, hdeep]
    simp [findOperatorFrom]
  rw [findOperator, List.cons_append, findOperatorFrom, hread, Cursor.start_next_open]
  simp only [Option.bind_some, hfind, hclose, Option.map_none]

/-! ### The next operator -/

/-- The place of a tier among all tiers, the weakest first. -/
def Tier.rank : Tier → Nat
  | .logical => 0
  | .unaryText => 1
  | .comparison => 2

/-- **Where an operator is found**: the cursor reads what stands before it, and the operator can be
read there, outside all groups and literals. -/
theorem exists_run_of_findOperatorFrom {tier : Tier} {k : Cursor} {cs : List Char} {s : Split}
    (h : findOperatorFrom tier k cs = some s) :
    ∃ k', k.run s.before = some k' ∧
      operatorAt? tier k' (s.operator.text.toList ++ s.after) = some (s.operator, s.after) := by
  induction cs generalizing k s with
  | nil => simp [findOperatorFrom] at h
  | cons c cs ih =>
    have hwhole := eq_append_of_findOperatorFrom h
    rw [findOperatorFrom] at h
    split at h
    · rename_i op after hat
      cases h
      rw [← hwhole] at hat
      exact ⟨k, rfl, by simpa [Split.whole] using hat⟩
    · obtain ⟨k₁, hk₁, h⟩ := Option.bind_eq_some_iff.mp h
      obtain ⟨s', hs', rfl⟩ := Option.map_eq_some_iff.mp h
      obtain ⟨k', hrun, hat⟩ := ih hs'
      exact ⟨k', by simp [Cursor.run, hk₁, hrun], hat⟩

/-- An operator can be read outside all groups and literals only. -/
theorem read?_of_operatorAt? {tier : Tier} {k : Cursor} {cs : List Char}
    {found : Operator × List Char} (h : operatorAt? tier k cs = some found) :
    k.depth = 0 ∧ k.quoting ≠ .inside ∧ tier.read? k.previous cs = some found := by
  cases cs with
  | nil => simp [operatorAt?] at h
  | cons c cs =>
    rw [operatorAt?] at h
    split at h
    · rename_i hplain
      simp only [Cursor.isPlain, Bool.and_eq_true, decide_eq_true_eq] at hplain
      refine ⟨hplain.1, fun hinside => ?_, h⟩
      by_cases hc : c = '\'' <;> simp [hinside, Quoting.next, hc] at hplain
    · simp at h

/-- What is found is an operator of the tier. -/
theorem tier_of_findOperatorFrom {tier : Tier} {k : Cursor} {cs : List Char} {s : Split}
    (h : findOperatorFrom tier k cs = some s) : s.operator.tier = tier := by
  obtain ⟨k', _, hat⟩ := exists_run_of_findOperatorFrom h
  exact (Tier.eq_of_read? (read?_of_operatorAt? hat).2.2).1

/-- **The next operator** is the first of its tier, and there is none of a weaker tier. -/
theorem findNextOperator_eq_some_iff {cs : List Char} {s : Split} :
    findNextOperator cs = some s ↔
      findOperator s.operator.tier cs = some s ∧
        ∀ tier : Tier, tier.rank < s.operator.tier.rank → findOperator tier cs = none := by
  constructor
  · intro h
    obtain ⟨tier, hfind, hweaker⟩ : ∃ tier, findOperator tier cs = some s ∧
        ∀ tier' : Tier, tier'.rank < tier.rank → findOperator tier' cs = none := by
      simp only [findNextOperator, Tier.all, List.findSome?_cons, List.findSome?_nil] at h
      cases h1 : findOperator .logical cs with
      | some s1 =>
        exact ⟨.logical, by simpa [h1] using h, fun tier' hlt => absurd hlt (Nat.not_lt_zero _)⟩
      | none =>
        cases h2 : findOperator .unaryText cs with
        | some s2 =>
          refine ⟨.unaryText, by simpa [h1, h2] using h, fun tier' hlt => ?_⟩
          cases tier' <;> simp_all [Tier.rank]
        | none =>
          cases h3 : findOperator .comparison cs with
          | none => simp [h1, h2, h3] at h
          | some s3 =>
            refine ⟨.comparison, by simpa [h1, h2, h3] using h, fun tier' hlt => ?_⟩
            cases tier' <;> simp_all [Tier.rank]
    obtain rfl := tier_of_findOperatorFrom hfind
    exact ⟨hfind, hweaker⟩
  · rintro ⟨hfind, hweaker⟩
    cases htier : s.operator.tier with
    | logical => simp [findNextOperator, Tier.all, htier ▸ hfind]
    | unaryText =>
      rw [htier] at hfind hweaker
      simp [findNextOperator, Tier.all, hfind, hweaker .logical (by decide)]
    | comparison =>
      rw [htier] at hfind hweaker
      simp [findNextOperator, Tier.all, hfind, hweaker .logical (by decide),
        hweaker .unaryText (by decide)]

/-- The parts of a split at the next operator make up the text. -/
theorem eq_append_of_findNextOperator {cs : List Char} {s : Split}
    (h : findNextOperator cs = some s) :
    cs = s.before ++ (s.operator.text.toList ++ s.after) := by
  have hwhole := eq_append_of_findOperator (findNextOperator_eq_some_iff.mp h).1
  rw [← hwhole, Split.whole, List.append_assoc]

/-! ### Operators between pieces -/

theorem Operator.balanced_text (op : Operator) : Balanced op.text.toList := by
  rcases op with (_ | _) | _ | _ | (_ | _ | _ | _ | _ | _) <;>
    exact ⟨_, rfl, rfl, by decide⟩

/-- An operator holds none of another tier. -/
theorem findOperator_text_of_ne {op : Operator} {tier : Tier} (h : tier ≠ op.tier) :
    findOperator tier op.text.toList = none := by
  rcases op with (_ | _) | _ | _ | (_ | _ | _ | _ | _ | _) <;> cases tier <;>
    first | rfl | exact absurd rfl h

/-- Whether a character may go on with the operator. -/
def Operator.goesOnWith (op : Operator) (c : Char) : Bool :=
  if op.isWord then c.isAlpha else c == '=' || c == '>'

theorem Operator.goesOnWith_word {op : Operator} (hword : op.isWord = true) :
    op.goesOnWith = Char.isAlpha := by
  funext c
  rw [Operator.goesOnWith, if_pos hword]

theorem Operator.read?_text (op : Operator) {cs : List Char}
    (h : cs.head?.any op.goesOnWith = false) :
    op.tier.read? none (op.text.toList ++ cs) = some (op, cs) := by
  rcases op with (_ | _) | _ | _ | op
  case compare =>
    cases cs with
    | nil => cases op <;> rfl
    | cons c cs =>
      simp only [Operator.goesOnWith, Operator.isWord, Bool.false_eq_true, if_false,
        List.head?_cons,
        Option.any_some, Bool.or_eq_false_iff, beq_eq_false_iff_ne] at h
      cases op <;>
        simp [Operator.tier, Tier.read?, Tier.operators, Operator.strip?, Operator.text,
          Comparison.text, Text.after?, Operator.isWord, h]
  all_goals exact Operator.read?_word rfl h

/-- **An operator at the start** of a text is found in its own tier. -/
theorem findOperator_operator (op : Operator) {cs : List Char}
    (h : cs.head?.any op.goesOnWith = false) :
    findOperator op.tier (op.text.toList ++ cs) = some ⟨[], op, cs⟩ := by
  have hread := op.read?_text h
  have hplain : op.text.toList.all Cursor.start.isPlain = true := by
    rcases op with (_ | _) | _ | _ | (_ | _ | _ | _ | _ | _) <;> decide
  obtain ⟨c, tail, htext⟩ := List.exists_cons_of_ne_nil op.text_ne_nil
  rw [htext, List.cons_append] at hread ⊢
  have hat : operatorAt? op.tier .start (c :: (tail ++ cs)) = some (op, cs) := by
    rw [operatorAt?, if_pos (List.all_eq_true.mp hplain c (by simp [htext]))]
    exact hread
  rw [findOperator, findOperatorFrom, hat]

/-- A text that holds no comparison begins with none of its signs. -/
theorem head?_of_findOperator_comparison {cs : List Char}
    (h : findOperator .comparison cs = none) (op : Comparison) :
    cs.head?.any (Operator.compare op).goesOnWith = false := by
  cases cs with
  | nil => rfl
  | cons c cs =>
    rw [List.head?_cons, Option.any_some, Bool.eq_false_iff]
    intro hsign
    simp only [Operator.goesOnWith, Operator.isWord, Bool.false_eq_true, if_false, Bool.or_eq_true,
      beq_iff_eq] at hsign
    have hread := operatorAt?_eq_none h
    rcases hsign with rfl | rfl
    · exact (Operator.compare .eq).read?_comparison_ne_none rfl none cs hread
    · exact (Operator.compare .gt).read?_comparison_ne_none rfl none cs hread

/-- The operator stands between two pieces so that the text splits there: both pieces are balanced
and apart from it, the first holds none that would be found before it, and the second none of a
weaker tier. -/
structure Operator.Splits (op : Operator) (cs ds : List Char) : Prop where
  balanced_before : Balanced cs
  balanced_after : Balanced ds
  before : ∀ tier : Tier, tier.rank ≤ op.tier.rank → findOperator tier cs = none
  after : ∀ tier : Tier, tier.rank < op.tier.rank → findOperator tier ds = none
  apart_before : Apart cs op.text.toList
  apart_after : Apart op.text.toList ds
  ends : ds.head?.any op.goesOnWith = false

namespace Operator.Splits

variable {op : Operator} {cs ds : List Char}

theorem apart (h : op.Splits cs ds) : Apart cs (op.text.toList ++ ds) :=
  h.apart_before.append_right op.text_ne_nil ds

theorem balanced (h : op.Splits cs ds) : Balanced (cs ++ (op.text.toList ++ ds)) :=
  (h.balanced_before.append_iff h.apart).mpr
    ((op.balanced_text.append_iff h.apart_after).mpr h.balanced_after)

/-- **The operator between two pieces** is the one at which the text splits. -/
theorem findNextOperator_eq (h : op.Splits cs ds) :
    findNextOperator (cs ++ (op.text.toList ++ ds)) = some ⟨cs, op, ds⟩ := by
  rw [findNextOperator_eq_some_iff]
  constructor
  · rw [findOperator_append h.balanced_before (h.before op.tier (Nat.le_refl _)) h.apart,
      findOperator_operator op h.ends]
    simp [Split.prepend]
  · intro tier hlt
    have hne : tier ≠ op.tier := by
      rintro rfl
      exact Nat.lt_irrefl _ hlt
    rw [findOperator_append h.balanced_before (h.before tier (Nat.le_of_lt hlt)) h.apart,
      findOperator_append op.balanced_text (findOperator_text_of_ne hne) h.apart_after,
      h.after tier hlt]
    rfl

end Operator.Splits

/-- No operator goes on with a blank. -/
theorem Operator.goesOnWith_blank (op : Operator) {c : Char} (hb : Text.isBlank c = true) :
    op.goesOnWith c = false := by
  have heq := ne_of_isBlank hb (d := '=') rfl
  have hgt := ne_of_isBlank hb (d := '>') rfl
  simp [Operator.goesOnWith, isAlpha_of_isBlank hb, heq, hgt]

section Blank

variable {op : Operator} {cs ds : List Char} {b b' : Char} (hb' : Text.isBlank b' = true)
  (hd : Balanced ds)
  (hafter : ∀ tier : Tier, tier.rank < op.tier.rank → findOperator tier ds = none)

include hb' hd hafter

/-- **Blanks on both sides** keep an operator apart from its pieces. -/
theorem Operator.splits_between_blanks (hb : Text.isBlank b = true) (hc : Balanced cs)
    (hbefore : ∀ tier : Tier, tier.rank ≤ op.tier.rank → findOperator tier cs = none) :
    op.Splits (cs ++ [b]) (b' :: ds) where
  balanced_before := (Balanced.concat_blank_iff hb).mpr hc
  balanced_after := (Balanced.cons_blank_iff hb').mpr hd
  before tier hle := (findOperator_concat_blank_eq_none_iff hb hc).mpr (hbefore tier hle)
  after tier hlt := (findOperator_cons_blank_eq_none_iff hb').mpr (hafter tier hlt)
  apart_before := apart_concat_blank hb cs _
  apart_after := apart_cons_blank hb' _ ds
  ends := op.goesOnWith_blank hb'

/-- **At the start** of a text an operator has nothing before it. -/
theorem Operator.splits_before_blank : op.Splits [] (b' :: ds) where
  balanced_before := balanced_nil
  balanced_after := (Balanced.cons_blank_iff hb').mpr hd
  before _ _ := rfl
  after tier hlt := (findOperator_cons_blank_eq_none_iff hb').mpr (hafter tier hlt)
  apart_before := apart_of_getLast? rfl (by simp) _
  apart_after := apart_cons_blank hb' _ ds
  ends := op.goesOnWith_blank hb'

end Blank

end FeatureQuery
