import FeatureQuery.Proofs.Predicate.Evaluation
import FeatureQuery.Proofs.Query.Reading

/-!
# Printing and reading back

`Expr.text` writes a tree with every operand of `and`, `or` and `not` in parentheses. The text
denotes the tree again, provided that its leaves are **self-contained**: an operand that is read on
its own reads as itself. The reader builds connectives of two operands only, so what comes back is
the **right-nested** tree, in which more operands nest to the right and one alone stands for itself
(`denotes_text`); a tree of two-operand connectives comes back as it is (`rightNested_of_isBinary`).

Right-nesting commutes with `compile` (`compile_rightNested`) and is invisible to evaluation
(`Predicate.evaluate_rightNested`), errors included: connectives evaluate their operands from left
to right either way.
-/

namespace FeatureQuery

/-- An operand that is the same after it was read on its own, and holds no operator. -/
structure IsSelfContained (operand : String) : Prop where
  ne_empty : operand.toList ≠ []
  stripWrapping_eq : stripWrapping operand.toList = operand.toList
  checkBalance_eq : checkBalance operand.toList = .ok ()
  noOperator : findNextOperator operand.toList = none

instance (operand : String) : Decidable (IsSelfContained operand) :=
  decidable_of_iff (operand.toList ≠ [] ∧ stripWrapping operand.toList = operand.toList ∧
    checkBalance operand.toList = .ok () ∧ findNextOperator operand.toList = none)
    ⟨fun h => ⟨h.1, h.2.1, h.2.2.1, h.2.2.2⟩, fun h => ⟨h.1, h.2, h.3, h.4⟩⟩

namespace IsSelfContained

variable {operand left right : String}

theorem balanced (h : IsSelfContained operand) : Balanced operand.toList :=
  checkBalance_eq_ok_iff.mp h.checkBalance_eq

theorem isOperand (h : IsSelfContained operand) : IsOperand operand.toList :=
  ⟨h.ne_empty, h.noOperator⟩

theorem stripWrapping_concat (h : IsSelfContained operand) :
    stripWrapping (operand.toList ++ [' ']) = operand.toList := by
  rw [stripWrapping_concat_blank rfl, h.stripWrapping_eq]

theorem stripWrapping_cons (h : IsSelfContained operand) :
    stripWrapping (' ' :: operand.toList) = operand.toList := by
  rw [stripWrapping_cons_blank rfl, h.stripWrapping_eq]

/-- An operator between self-contained operands is the one at which the text splits. -/
theorem splits (hl : IsSelfContained left) (hr : IsSelfContained right) (op : Operator) :
    op.Splits (left.toList ++ [' ']) (' ' :: right.toList) :=
  Operator.splits_between_blanks rfl hr.balanced
    (fun tier _ => findNextOperator_eq_none_iff.mp hr.noOperator tier) rfl hl.balanced
    fun tier _ => findNextOperator_eq_none_iff.mp hl.noOperator tier

/-- A comparison of self-contained operands. -/
theorem denotes_compare (hl : IsSelfContained left) (hr : IsSelfContained right)
    (op : Comparison) : Denotes (Expr.text (.compare op left right)).toList
      (.compare op left right) := by
  have htext : (Expr.text (.compare op left right)).toList =
      left.toList ++ [' '] ++ ((Operator.compare op).text.toList ++ ' ' :: right.toList) := by
    simp [Expr.text, Operator.text]
  have h := @Denotes.compare (left.toList ++ [' ']) (' ' :: right.toList)
  simp only [hl.stripWrapping_concat, hr.stripWrapping_cons, String.ofList_toList] at h
  rw [htext]
  exact h hl.isOperand hr.isOperand (hl.splits hr (.compare op))

/-- A self-contained field matched against a self-contained pattern. -/
theorem denotes_like (hl : IsSelfContained left) (hr : IsSelfContained right) :
    Denotes (Expr.text (.like left right)).toList (.like left right) := by
  have htext : (Expr.text (.like left right)).toList =
      left.toList ++ [' '] ++ (Operator.like.text.toList ++ ' ' :: right.toList) := by
    simp [Expr.text, Operator.text]
  have h := @Denotes.like (left.toList ++ [' ']) (' ' :: right.toList)
  simp only [hl.stripWrapping_concat, hr.stripWrapping_cons, String.ofList_toList] at h
  rw [htext]
  exact h hl.isOperand hr.isOperand (hl.splits hr .like)

/-- **A comparison of self-contained operands** is read as it is written. -/
theorem parse_compare (hl : IsSelfContained left) (hr : IsSelfContained right) (op : Comparison) :
    parse (left ++ " " ++ op.text ++ " " ++ right) = .ok (.compare op left right) :=
  parse_eq_ok_iff.mpr ⟨hl.denotes_compare hr op, by simp [Expr.depth, maxLevels]⟩

/-- **A match of self-contained operands** is read as it is written. -/
theorem parse_like (hl : IsSelfContained left) (hr : IsSelfContained right) :
    parse (left ++ " like " ++ right) = .ok (.like left right) :=
  parse_eq_ok_iff.mpr ⟨hl.denotes_like hr, by simp [Expr.depth, maxLevels]⟩

end IsSelfContained

namespace Expr

mutual

/-- Every connective has an operand, and every operand of a condition is self-contained. -/
def IsPrintable : Expr → Prop
  | .compare _ field value => IsSelfContained field ∧ IsSelfContained value
  | .like field pattern => IsSelfContained field ∧ IsSelfContained pattern
  | .not operand => IsPrintable operand
  | .join _ operands => operands ≠ [] ∧ AllPrintable operands

/-- All trees of a list are printable. -/
def AllPrintable : List Expr → Prop
  | [] => True
  | e :: es => IsPrintable e ∧ AllPrintable es

end

mutual

/-- Every connective has exactly two operands. -/
def IsBinary : Expr → Prop
  | .compare .. => True
  | .like .. => True
  | .not operand => IsBinary operand
  | .join _ operands => operands.length = 2 ∧ AllBinary operands

/-- All trees of a list have connectives of exactly two operands. -/
def AllBinary : List Expr → Prop
  | [] => True
  | e :: es => IsBinary e ∧ AllBinary es

end

mutual

/-- The tree with connectives of two operands: more operands nest to the right, and one alone stands
for itself. -/
def rightNested : Expr → Expr
  | .compare op field value => .compare op field value
  | .like field pattern => .like field pattern
  | .not operand => .not (rightNested operand)
  | .join connective operands => nestRight connective operands

/-- The operands of a connective, nested to the right. -/
def nestRight (connective : Connective) : List Expr → Expr
  | [] => .join connective []
  | [e] => rightNested e
  | e :: f :: rest => .join connective [rightNested e, nestRight connective (f :: rest)]

end

theorem rightNested_of_isBinary : ∀ e : Expr, e.IsBinary → e.rightNested = e
  | .compare .., _ => rfl
  | .like .., _ => rfl
  | .not operand, h => by rw [rightNested, rightNested_of_isBinary operand h]
  | .join connective [e, f], ⟨_, he, hf, _⟩ => by
    rw [rightNested, nestRight, nestRight, rightNested_of_isBinary e he,
      rightNested_of_isBinary f hf]

/-! ### The text of a tree -/

theorem toList_text_not (operand : Expr) :
    (text (.not operand)).toList =
      Operator.not.text.toList ++ ' ' :: ('(' :: (text operand).toList ++ [')']) := by
  simp [text, Operator.text]

theorem toList_joined_singleton (connective : Connective) (e : Expr) :
    (joined connective [e]).toList = '(' :: (text e).toList ++ [')'] := by
  simp [joined]

theorem toList_joined_cons_cons (connective : Connective) (e f : Expr) (rest : List Expr) :
    (joined connective (e :: f :: rest)).toList =
      '(' :: (text e).toList ++ [')'] ++
        ' ' :: (connective.text.toList ++ ' ' :: (joined connective (f :: rest)).toList) := by
  simp [joined]

/-! ### The text denotes the tree -/

mutual

/-- **The text of a tree denotes the tree**, nested to the right. -/
theorem denotes_text : ∀ e : Expr, e.IsPrintable → Denotes e.text.toList e.rightNested
  | .compare op _ _, ⟨hf, hv⟩ => hf.denotes_compare hv op
  | .like _ _, ⟨hf, hp⟩ => hf.denotes_like hp
  | .not operand, h => by
    rw [toList_text_not, rightNested]
    exact (denotes_text operand h).not_group
  | .join connective operands, ⟨hne, h⟩ => denotes_joined connective operands hne h

/-- **Joined operands** denote the connective with its operands nested to the right. -/
theorem denotes_joined (connective : Connective) : ∀ es : List Expr, es ≠ [] → AllPrintable es →
    Denotes (joined connective es).toList (nestRight connective es)
  | [], hne, _ => absurd rfl hne
  | [e], _, ⟨he, _⟩ => by
    rw [toList_joined_singleton, nestRight]
    exact (denotes_text e he).group
  | e :: f :: rest, _, ⟨he, hrest⟩ => by
    rw [toList_joined_cons_cons, nestRight]
    have htail := denotes_joined connective (f :: rest) (by simp) hrest
    exact (denotes_text e he).join_group htail connective

end

end Expr

/-! ### Right-nesting and evaluation -/

namespace Predicate

mutual

/-- The predicate with connectives of two operands: more operands nest to the right, and one alone
stands for itself. -/
def rightNested : Predicate → Predicate
  | .compare field op literal => .compare field op literal
  | .like field pattern => .like field pattern
  | .not operand => .not (rightNested operand)
  | .join connective operands => nestRight connective operands

/-- The operands of a connective, nested to the right. -/
def nestRight (connective : Connective) : List Predicate → Predicate
  | [] => .join connective []
  | [p] => rightNested p
  | p :: q :: rest => .join connective [rightNested p, nestRight connective (q :: rest)]

end

mutual

/-- **Nesting does not change what a predicate says of a record**, errors included. -/
theorem evaluate_rightNested (r : Record) : ∀ p : Predicate,
    evaluate r p.rightNested = evaluate r p
  | .compare .. => rfl
  | .like .. => rfl
  | .not operand => by rw [rightNested, evaluate, evaluate, evaluate_rightNested r operand]
  | .join connective operands => by
    rw [rightNested, evaluate, evaluate_nestRight r connective operands]

theorem evaluate_nestRight (r : Record) (connective : Connective) : ∀ ps : List Predicate,
    evaluate r (nestRight connective ps) = evaluateAll r connective ps
  | [] => rfl
  | [p] => by rw [nestRight, evaluateAll_singleton, evaluate_rightNested r p]
  | p :: q :: rest => by
    rw [nestRight, evaluate, evaluateAll, evaluateAll_singleton, evaluate_rightNested r p,
      evaluate_nestRight r connective (q :: rest)]
    rfl

end

end Predicate

mutual

/-- **Nesting commutes with compiling**, and so does not change the errors of compiling. -/
theorem compile_rightNested (schema : Schema) : ∀ e : Expr,
    compile schema e.rightNested = (compile schema e).map Predicate.rightNested
  | .compare op field value => by
    rw [Expr.rightNested, compile]
    cases schema.field field <;> rfl
  | .like field pattern => by
    rw [Expr.rightNested, compile]
    cases schema.field field <;> rfl
  | .not operand => by
    rw [Expr.rightNested, compile, compile, compile_rightNested schema operand]
    cases compile schema operand <;> rfl
  | .join connective operands => by
    rw [Expr.rightNested, compile, compile_nestRight schema connective operands]
    cases compileAll schema operands <;> rfl

theorem compile_nestRight (schema : Schema) (connective : Connective) : ∀ es : List Expr,
    compile schema (Expr.nestRight connective es) =
      (compileAll schema es).map (Predicate.nestRight connective)
  | [] => rfl
  | [e] => by
    rw [Expr.nestRight, compile_rightNested schema e, compileAll]
    cases compile schema e <;> rfl
  | e :: f :: rest => by
    have htail := compile_nestRight schema connective (f :: rest)
    rw [Expr.nestRight, compile]
    simp only [compileAll, htail, compile_rightNested schema e]
    cases compile schema e with
    | error e => rfl
    | ok p =>
      cases compile schema f with
      | error e => rfl
      | ok q => cases compileAll schema rest <;> rfl

end

/-- **A printed tree is read back**, nested to the right, if it has at most 255 levels, and exactly
as it was if its connectives have two operands; and on every schema and record the tree that comes
back has the answer, or the error, of the tree that was printed. -/
theorem parse_text {e : Expr} (he : e.IsPrintable) :
    (e.rightNested.depth ≤ 255 → parse e.text = .ok e.rightNested) ∧
      (e.IsBinary → e.rightNested = e) ∧
      ∀ (schema : Schema) (r : Record),
        (compile schema e.rightNested >>= fun p => p.evaluate r) =
          (compile schema e >>= fun p => p.evaluate r) := by
  refine ⟨fun hdepth => ?_, e.rightNested_of_isBinary, fun schema r => ?_⟩
  · exact parse_eq_ok_iff.mpr ⟨e.denotes_text he, Nat.lt_succ_of_le hdepth⟩
  · rw [compile_rightNested]
    cases compile schema e with
    | error error => rfl
    | ok p => exact Predicate.evaluate_rightNested r p

/-- Operands that quote an operator or hold one in a group, joined three at once and alone. -/
theorem parse_text_three_operands :
    let e := Expr.join .or [.like "nombre" "'San and%'",
      .join .and [.compare .eq "zona" "(a or b)c"], .not (.compare .lt "poblacion" "10")]
    e.text = "(nombre like 'San and%') or ((zona = (a or b)c)) or (not (poblacion < 10))" ∧
      e.IsPrintable ∧ parse e.text = .ok e.rightNested := by
  intro e
  have he : e.IsPrintable := by
    refine ⟨by decide, ⟨?_, ?_⟩, ⟨by decide, ⟨?_, ?_⟩, trivial⟩, ⟨?_, ?_⟩, trivial⟩ <;>
      exact ⟨by decide +kernel, by decide +kernel, by decide +kernel, by decide +kernel⟩
  exact ⟨by decide +kernel, he, (parse_text he).1 (by decide +kernel)⟩

end FeatureQuery
