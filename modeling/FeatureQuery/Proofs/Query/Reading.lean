import FeatureQuery.Proofs.Outcome
import FeatureQuery.Proofs.Query.Splitting
import FeatureQuery.Proofs.Query.Wrapping

/-!
# What a text denotes

`Reads cs e` says how the text `cs`, without anything around it, reads as the condition `e`: it
splits at its next operator, and its two sides read in turn. The relation knows no limit on the
number of levels. A text that reads as a condition is read by `parseCondition` as that condition if
there are levels enough, and is refused as too deep otherwise (`parseCondition_of_reads`); no other
text is read (`reads_of_parseCondition`).

`Denotes cs e` says the same of a whole query: the text is balanced, and what is left without the
blanks and parentheses around it reads as `e`. Its reading by `parse` follows (`parse_of_denotes`,
`parse_eq_ok_iff`). Texts are put together as their conditions are: a group denotes what its text
denotes (`Denotes.group`), and texts with an operator between them at which their whole splits
denote the condition with that operator (`Denotes.join`, `Denotes.not`, `Denotes.like`,
`Denotes.compare`).
-/

namespace FeatureQuery

/-- A text that an operand of a condition can be: it is there, and holds no operator. -/
def IsOperand (cs : List Char) : Prop := cs ≠ [] ∧ findNextOperator cs = none

/-- The text reads as the condition, however many levels it has. -/
inductive Reads : List Char → Expr → Prop where
  /-- Both sides of a connective are conditions. -/
  | join {cs before after : List Char} {connective : Connective} {first second : Expr}
      (split : findNextOperator cs = some ⟨before, .join connective, after⟩)
      (left : Reads (stripWrapping before) first) (right : Reads (stripWrapping after) second) :
      Reads cs (.join connective [first, second])
  /-- Nothing stands before `not`, and a condition after it. -/
  | not {cs before after : List Char} {operand : Expr}
      (split : findNextOperator cs = some ⟨before, .not, after⟩)
      (left : stripWrapping before = []) (right : Reads (stripWrapping after) operand) :
      Reads cs (.not operand)
  /-- Both sides of `like` are operands. -/
  | like {cs before after : List Char} (split : findNextOperator cs = some ⟨before, .like, after⟩)
      (left : IsOperand (stripWrapping before)) (right : IsOperand (stripWrapping after)) :
      Reads cs (.like (String.ofList (stripWrapping before)) (String.ofList (stripWrapping after)))
  /-- Both sides of a comparison are operands. -/
  | compare {cs before after : List Char} {op : Comparison}
      (split : findNextOperator cs = some ⟨before, .compare op, after⟩)
      (left : IsOperand (stripWrapping before)) (right : IsOperand (stripWrapping after)) :
      Reads cs (.compare op (String.ofList (stripWrapping before))
        (String.ofList (stripWrapping after)))

/-! ### Levels -/

theorem Reads.isSome_findNextOperator {cs : List Char} {e : Expr} (h : Reads cs e) :
    (findNextOperator cs).isSome := by
  cases h <;> simp_all

theorem Reads.ne_nil {cs : List Char} {e : Expr} (h : Reads cs e) : cs ≠ [] := by
  rintro rfl
  exact absurd h.isSome_findNextOperator (by decide)

/-- The operand of a connective or of `not` is read if it is a condition. -/
theorem Reads.parseOperand_eq {cs : List Char} {e : Expr} (h : Reads cs e) (op : Operator)
    (parse : List Char → Except Malformed Expr) : parseOperand op parse cs = parse cs := by
  have hop : (findNextOperator cs).isNone = false := by
    simpa using h.isSome_findNextOperator
  simp [parseOperand, h.ne_nil, hop]

theorem leafOperands_eq {left right : List Char} (hl : IsOperand left) (hr : IsOperand right)
    (op : Operator) :
    leafOperands op left right = .ok (String.ofList left, String.ofList right) := by
  simp [leafOperands, checkOperand, hl.1, hl.2, hr.1, hr.2]

/-- **Levels decide.** A text that reads as a condition is read if there are more levels than the
condition is deep, and is too deep otherwise. -/
theorem parseCondition_of_reads {cs : List Char} {e : Expr} (h : Reads cs e) (levels : Nat) :
    parseCondition levels cs = if e.depth < levels then .ok e else .error .tooDeep := by
  induction h generalizing levels with
  | @join cs before after connective first second split left right ihl ihr =>
    cases levels with
    | zero => rfl
    | succ levels =>
      simp only [parseCondition, split, left.parseOperand_eq, right.parseOperand_eq, ihl, ihr]
      have hdepth : (Expr.join connective [first, second]).depth < levels + 1 ↔
          first.depth < levels ∧ second.depth < levels := by
        simp only [Expr.depth, Expr.depthOfAll]
        omega
      by_cases h1 : first.depth < levels
      · by_cases h2 : second.depth < levels <;> simp [hdepth, h1, h2]
      · simp [hdepth, h1]
  | @not cs before after operand split left right ih =>
    cases levels with
    | zero => rfl
    | succ levels =>
      simp only [parseCondition, split, left, right.parseOperand_eq, ih]
      by_cases h : operand.depth < levels <;> simp [Expr.depth, h]
  | like split left right =>
    cases levels with
    | zero => rfl
    | succ levels => simp [parseCondition, split, leafOperands_eq left right, Expr.depth]
  | compare split left right =>
    cases levels with
    | zero => rfl
    | succ levels => simp [parseCondition, split, leafOperands_eq left right, Expr.depth]

theorem isOperand_of_leafOperands {op : Operator} {left right : List Char} {a b : String}
    (h : leafOperands op left right = .ok (a, b)) :
    IsOperand left ∧ IsOperand right ∧ a = String.ofList left ∧ b = String.ofList right := by
  have hcheck : ∀ {cs : List Char}, checkOperand op cs = .ok () → findNextOperator cs = none := by
    intro cs hc
    cases hop : findNextOperator cs with
    | none => rfl
    | some s => simp [checkOperand, hop] at hc
  rw [leafOperands] at h
  split at h
  · simp at h
  · split at h
    · simp at h
    · rename_i hl hr
      obtain ⟨_, hcl, h⟩ := bind_eq_ok_iff.mp h
      obtain ⟨_, hcr, h⟩ := bind_eq_ok_iff.mp h
      cases h
      exact ⟨⟨hl, hcheck hcl⟩, ⟨hr, hcheck hcr⟩, rfl, rfl⟩

theorem parse_of_parseOperand {op : Operator} {parse : List Char → Except Malformed Expr}
    {cs : List Char} {e : Expr} (h : parseOperand op parse cs = .ok e) : parse cs = .ok e := by
  rw [parseOperand] at h
  split at h
  · simp at h
  · split at h
    · simp at h
    · exact h

/-- **What is read reads so.** -/
theorem reads_of_parseCondition {levels : Nat} {cs : List Char} {e : Expr}
    (h : parseCondition levels cs = .ok e) : Reads cs e := by
  induction levels generalizing cs e with
  | zero => simp [parseCondition] at h
  | succ levels ih =>
    rw [parseCondition] at h
    cases hs : findNextOperator cs with
    | none => simp [hs] at h
    | some s =>
      obtain ⟨before, op, after⟩ := s
      simp only [hs] at h
      cases op with
      | join connective =>
        obtain ⟨first, h1, h⟩ := bind_eq_ok_iff.mp h
        obtain ⟨second, h2, h⟩ := bind_eq_ok_iff.mp h
        cases h
        exact .join hs (ih (parse_of_parseOperand h1)) (ih (parse_of_parseOperand h2))
      | not =>
        by_cases hl : stripWrapping before = []
        · simp only [hl, ne_eq, not_true_eq_false, if_false] at h
          obtain ⟨operand, h1, h⟩ := bind_eq_ok_iff.mp h
          cases h
          exact .not hs hl (ih (parse_of_parseOperand h1))
        · simp [hl] at h
      | like =>
        obtain ⟨⟨field, pattern⟩, h1, h⟩ := bind_eq_ok_iff.mp h
        obtain ⟨hl, hr, rfl, rfl⟩ := isOperand_of_leafOperands h1
        cases h
        exact .like hs hl hr
      | compare op =>
        obtain ⟨⟨field, value⟩, h1, h⟩ := bind_eq_ok_iff.mp h
        obtain ⟨hl, hr, rfl, rfl⟩ := isOperand_of_leafOperands h1
        cases h
        exact .compare hs hl hr

/-! ### Whole queries -/

/-- The text, as a whole query, denotes the condition, however many levels it has. -/
def Denotes (cs : List Char) (e : Expr) : Prop := Balanced cs ∧ Reads (stripWrapping cs) e

/-- **Reading a query** that denotes a condition: only its depth can be against it. -/
theorem parse_of_denotes {query : String} {e : Expr} (h : Denotes query.toList e) :
    parse query =
      if e.depth < maxLevels then .ok e else .error (.malformed query .tooDeep) := by
  simp only [parse, parseChars, checkBalance_eq_ok_iff.mpr h.1, ok_bind, h.2.ne_nil, if_false,
    parseCondition_of_reads h.2]
  split <;> rfl

/-- What denotes a condition of at most 255 levels is read as that condition. -/
theorem Denotes.parse_eq_ok {query : String} {e : Expr} (h : Denotes query.toList e)
    (hdepth : e.depth ≤ 255) : parse query = .ok e := by
  have hlt : e.depth < maxLevels := Nat.lt_succ_of_le hdepth
  rw [parse_of_denotes h, if_pos hlt]

/-- What denotes a condition of more levels is refused for its depth. -/
theorem Denotes.parse_eq_tooDeep {query : String} {e : Expr} (h : Denotes query.toList e)
    (hdepth : 255 < e.depth) : parse query = .error (.malformed query .tooDeep) := by
  have hge : ¬ e.depth < maxLevels := Nat.not_lt.mpr hdepth
  rw [parse_of_denotes h, if_neg hge]

/-- **A query is read** exactly when it denotes a condition that is not too deep. -/
theorem parse_eq_ok_iff {query : String} {e : Expr} :
    parse query = .ok e ↔ Denotes query.toList e ∧ e.depth < maxLevels := by
  constructor
  · intro h
    obtain ⟨_, hbal, h'⟩ := bind_eq_ok_iff.mp (mapError_eq_ok_iff.mp h)
    have hd : Denotes query.toList e := by
      refine ⟨checkBalance_eq_ok_iff.mp hbal, ?_⟩
      by_cases hnil : stripWrapping query.toList = []
      · simp [hnil] at h'
      · exact reads_of_parseCondition (by simpa [hnil] using h')
    refine ⟨hd, ?_⟩
    rw [parse_of_denotes hd] at h
    split at h
    · assumption
    · simp at h
  · rintro ⟨hd, hlt⟩
    rw [parse_of_denotes hd, if_pos hlt]

/-! ### Composing texts -/

theorem Denotes.ne_nil {cs : List Char} {e : Expr} (h : Denotes cs e) : cs ≠ [] := by
  rintro rfl
  exact h.2.ne_nil stripWrapping_nil

/-- **A group** denotes what its text denotes. -/
theorem Denotes.group {cs : List Char} {e : Expr} (h : Denotes cs e) :
    Denotes ('(' :: cs ++ [')']) e :=
  ⟨h.1.group, by rw [stripWrapping_group h.1]; exact h.2⟩

theorem Denotes.cons_blank {cs : List Char} {e : Expr} (h : Denotes cs e) {c : Char}
    (hc : Text.isBlank c = true) : Denotes (c :: cs) e :=
  ⟨(Balanced.cons_blank_iff hc).mpr h.1, by rw [stripWrapping_cons_blank hc]; exact h.2⟩

theorem Denotes.concat_blank {cs : List Char} {e : Expr} (h : Denotes cs e) {c : Char}
    (hc : Text.isBlank c = true) : Denotes (cs ++ [c]) e :=
  ⟨(Balanced.concat_blank_iff hc).mpr h.1, by rw [stripWrapping_concat_blank hc]; exact h.2⟩

section Composing

variable {cs ds : List Char} {a b : Expr}

/-- **Joined texts** denote joined conditions. -/
theorem Denotes.join {connective : Connective} (ha : Denotes cs a) (hb : Denotes ds b)
    (h : (Operator.join connective).Splits cs ds) :
    Denotes (cs ++ ((Operator.join connective).text.toList ++ ds)) (.join connective [a, b]) := by
  refine ⟨h.balanced, ?_⟩
  rw [h.stripWrapping_eq]
  refine .join h.trim.findNextOperator_eq ?_ ?_
  · rw [stripWrapping_trimStart]
    exact ha.2
  · rw [stripWrapping_trimEnd]
    exact hb.2

/-- **The opposite** of a condition is denoted by `not` and the text of the condition, with nothing
before them that is left. -/
theorem Denotes.not (hnil : stripWrapping cs = []) (ha : Denotes ds a)
    (h : Operator.not.Splits cs ds) :
    Denotes (cs ++ (Operator.not.text.toList ++ ds)) (.not a) := by
  refine ⟨h.balanced, ?_⟩
  rw [h.stripWrapping_eq]
  refine .not h.trim.findNextOperator_eq ?_ ?_
  · rw [stripWrapping_trimStart, hnil]
  · rw [stripWrapping_trimEnd]
    exact ha.2

/-- **A pattern after `like`** denotes a match. -/
theorem Denotes.like (ha : IsOperand (stripWrapping cs)) (hb : IsOperand (stripWrapping ds))
    (h : Operator.like.Splits cs ds) :
    Denotes (cs ++ (Operator.like.text.toList ++ ds))
      (.like (String.ofList (stripWrapping cs)) (String.ofList (stripWrapping ds))) := by
  refine ⟨h.balanced, ?_⟩
  rw [h.stripWrapping_eq]
  have hreads := Reads.like h.trim.findNextOperator_eq
  simp only [stripWrapping_trimStart, stripWrapping_trimEnd] at hreads
  exact hreads ha hb

/-- **A value after a sign** denotes a comparison. -/
theorem Denotes.compare {op : Comparison} (ha : IsOperand (stripWrapping cs))
    (hb : IsOperand (stripWrapping ds)) (h : (Operator.compare op).Splits cs ds) :
    Denotes (cs ++ ((Operator.compare op).text.toList ++ ds))
      (.compare op (String.ofList (stripWrapping cs)) (String.ofList (stripWrapping ds))) := by
  refine ⟨h.balanced, ?_⟩
  rw [h.stripWrapping_eq]
  have hreads := Reads.compare h.trim.findNextOperator_eq
  simp only [stripWrapping_trimStart, stripWrapping_trimEnd] at hreads
  exact hreads ha hb

/-- A connective between a group and another text, with blanks around it. -/
theorem Denotes.join_group (ha : Denotes cs a) (hb : Denotes ds b) (connective : Connective) :
    Denotes ('(' :: cs ++ [')'] ++ ' ' :: (connective.text.toList ++ ' ' :: ds))
      (.join connective [a, b]) := by
  have hsplits : (Operator.join connective).Splits ('(' :: cs ++ [')'] ++ [' ']) (' ' :: ds) :=
    Operator.splits_between_blanks rfl hb.1 (fun tier hlt => absurd hlt (Nat.not_lt_zero _)) rfl
      ha.1.group fun _ _ => findOperator_group ha.1
  simpa [Operator.text] using (ha.group.concat_blank rfl).join (hb.cons_blank rfl) hsplits

/-- The opposite of a group, after a blank. -/
theorem Denotes.not_group (ha : Denotes cs a) :
    Denotes (Operator.not.text.toList ++ ' ' :: ('(' :: cs ++ [')'])) (.not a) :=
  .not stripWrapping_nil (ha.group.cons_blank rfl)
    (Operator.splits_before_blank rfl ha.1.group fun _ _ => findOperator_group ha.1)

end Composing

end FeatureQuery
