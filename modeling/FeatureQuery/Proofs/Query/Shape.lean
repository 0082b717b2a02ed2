import FeatureQuery.Proofs.Query.Reading

/-!
# The shape of a tree that was read

`Expr.Below n f e` says that the node `f` stands `n` edges below the root of `e`, and so the nodes
of a tree are those below its root. Every node of a tree that was read is shaped in the same way
(`Expr.IsNode`): a connective has two operands, and each operand of a condition was cut out of the
text (`IsCutFrom`). What is cut out at one level of the reading is cut out of the whole text,
because each side of an operator is a piece of the text and so is what is left of it without blanks
and parentheses (`IsCutFrom.of_within`). An operand has nothing more to lose at its ends, since it
is looked at after all parentheses around it are gone.

Main statement: `parse_shape`, which also says what every refusal of a text carries.
-/

namespace FeatureQuery

/-! ### The nodes of a tree -/

namespace Expr

/-- The node stands so many edges below the root of the tree. -/
inductive Below : Nat → Expr → Expr → Prop where
  /-- The root is a node. -/
  | root (e : Expr) : Below 0 e e
  /-- The nodes of the operand of `not`. -/
  | not {n : Nat} {node operand : Expr} (below : Below n node operand) :
      Below (n + 1) node (.not operand)
  /-- The nodes of one of the operands of a connective. -/
  | join {n : Nat} {node operand : Expr} {operands : List Expr} (connective : Connective)
      (mem : operand ∈ operands) (below : Below n node operand) :
      Below (n + 1) node (.join connective operands)

theorem depth_le_depthOfAll {operand : Expr} {operands : List Expr} (h : operand ∈ operands) :
    operand.depth ≤ depthOfAll operands := by
  induction operands with
  | nil => simp at h
  | cons e rest ih =>
    rw [depthOfAll]
    rcases List.mem_cons.mp h with rfl | h
    · exact Nat.le_max_left _ _
    · exact Nat.le_trans (ih h) (Nat.le_max_right _ _)

/-- **No path is longer than the tree is deep.** -/
theorem Below.le_depth {n : Nat} {node e : Expr} (h : Below n node e) : n ≤ e.depth := by
  induction h with
  | root => exact Nat.zero_le _
  | not _ ih =>
    rw [depth]
    omega
  | join _ mem _ ih =>
    have hdepth := depth_le_depthOfAll mem
    rw [depth]
    omega

end Expr

/-! ### Operands as pieces of a text -/

/-- The operand is a piece of the text that has nothing around it to lose and holds no operator. -/
structure IsCutFrom (cs : List Char) (operand : String) : Prop where
  ne_nil : operand.toList ≠ []
  within : operand.toList <:+: cs
  first : operand.toList.head?.any Text.isBlank = false
  last : operand.toList.getLast?.any Text.isBlank = false
  not_isGroup : ∀ inside, ¬ IsGroup operand.toList inside
  noOperator : findNextOperator operand.toList = none ∧
    ∀ tier, findOperator tier operand.toList = none

/-- **What is left of a text** without the blanks and parentheses around it is a piece of it. -/
theorem stripWrapping_within (cs : List Char) : stripWrapping cs <:+: cs := by
  refine of_stripWrapping (P := fun ds => stripWrapping cs <:+: ds) ?_ ?_ ?_ List.infix_rfl
  · intro c _ ds h
    exact List.infix_cons h
  · intro c _ ds h
    exact h.trans (List.prefix_append ds [c]).isInfix
  · intro ds _ h
    exact h.trans ⟨['('], [')'], rfl⟩

/-- Each side of an operator is a piece of the text. -/
theorem sides_within {cs : List Char} {s : Split} (h : findNextOperator cs = some s) :
    s.before <:+: cs ∧ s.after <:+: cs := by
  rw [eq_append_of_findNextOperator h]
  exact ⟨(List.prefix_append ..).isInfix,
    (List.suffix_append ..).isInfix.trans (List.suffix_append ..).isInfix⟩

/-- What is cut from a piece of a text is cut from the text. -/
theorem IsCutFrom.of_within {cs ds : List Char} {operand : String} (h : IsCutFrom cs operand)
    (hcs : cs <:+: ds) : IsCutFrom ds operand :=
  { h with within := h.within.trans hcs }

/-- **An operand of a condition** is cut from the text that stood there. -/
theorem IsOperand.isCutFrom {cs : List Char} (h : IsOperand (stripWrapping cs)) :
    IsCutFrom cs (String.ofList (stripWrapping cs)) := by
  obtain ⟨htrim, hgroup⟩ := stripWrapping_eq_self_iff.mp (stripWrapping_stripWrapping cs)
  obtain ⟨hfirst, hlast⟩ := Text.trim_eq_self_iff.mp htrim
  refine ⟨?_, ?_, ?_, ?_, ?_, ?_⟩ <;> rw [String.toList_ofList]
  · exact h.1
  · exact stripWrapping_within cs
  · exact hfirst
  · exact hlast
  · exact hgroup
  · exact ⟨h.2, findNextOperator_eq_none_iff.mp h.2⟩

/-! ### The nodes of a tree that was read -/

/-- The node is one that a tree read from the text can have: a connective has two operands, and the
operands of a condition are cut from the text. -/
def Expr.IsNode (cs : List Char) : Expr → Prop
  | .compare _ field value => IsCutFrom cs field ∧ IsCutFrom cs value
  | .like field pattern => IsCutFrom cs field ∧ IsCutFrom cs pattern
  | .not _ => True
  | .join _ operands => operands.length = 2

/-- A node of a tree read from a piece of a text is one of a tree read from the text. -/
theorem Expr.IsNode.of_within {cs ds : List Char} {node : Expr} (h : node.IsNode cs)
    (hcs : cs <:+: ds) : node.IsNode ds := by
  match node with
  | .compare .. | .like .. => exact ⟨h.1.of_within hcs, h.2.of_within hcs⟩
  | .not _ => trivial
  | .join .. => exact h

/-- **Every node** of a tree that a text reads as is shaped as `Expr.IsNode` says. -/
theorem Reads.isNode {cs : List Char} {e : Expr} (h : Reads cs e) {n : Nat} {node : Expr}
    (hnode : node.Below n e) : node.IsNode cs := by
  induction h generalizing n with
  | @join cs before after connective first second split left right ihl ihr =>
    obtain ⟨hbefore, hafter⟩ := sides_within split
    cases hnode with
    | root => rfl
    | join _ mem below =>
      rcases List.mem_pair.mp mem with rfl | rfl
      · exact (ihl below).of_within ((stripWrapping_within before).trans hbefore)
      · exact (ihr below).of_within ((stripWrapping_within after).trans hafter)
  | @not cs before after operand split left right ih =>
    cases hnode with
    | root => trivial
    | not below =>
      exact (ih below).of_within ((stripWrapping_within after).trans (sides_within split).2)
  | like split left right =>
    obtain ⟨hbefore, hafter⟩ := sides_within split
    cases hnode with
    | root => exact ⟨left.isCutFrom.of_within hbefore, right.isCutFrom.of_within hafter⟩
  | compare split left right =>
    obtain ⟨hbefore, hafter⟩ := sides_within split
    cases hnode with
    | root => exact ⟨left.isCutFrom.of_within hbefore, right.isCutFrom.of_within hafter⟩

/-- **The shape of every tree that is read.** No node stands more than 255 edges below the root,
every connective has exactly two operands, and every operand of a condition is a piece of the query,
not empty, without blanks at its ends, not one group, and without an operator of any tier. A text
that is refused is refused as malformed, and the error carries the whole text. -/
theorem parse_shape (query : String) :
    (∀ e, parse query = .ok e → ∀ n node, Expr.Below n node e →
      n ≤ 255 ∧ node.IsNode query.toList) ∧
    ∀ error, parse query = .error error → ∃ cause, error = .malformed query cause := by
  refine ⟨fun e h n node hnode => ?_, fun error h => ?_⟩
  · obtain ⟨⟨-, hreads⟩, hdepth⟩ := parse_eq_ok_iff.mp h
    have hle : n ≤ e.depth := hnode.le_depth
    rw [maxLevels] at hdepth
    exact ⟨by omega, (hreads.isNode hnode).of_within (stripWrapping_within query.toList)⟩
  · obtain ⟨cause, -, rfl⟩ := mapError_eq_error_iff.mp h
    exact ⟨cause, rfl⟩

/-- Parentheses are taken away at every level, around the whole query, a side and an operand, and
leave the group in the middle of an operand; and an operator that comes to light when they are gone
is refused, in a text that is reported with its blanks. -/
theorem parse_shape_groups :
    (let query := " ((((a) b) = ('x and')) or not(( c like (d (e = f)) )))"
     let node := Expr.like "c" "d (e = f)"
     let e := Expr.join .or [.compare .eq "(a) b" "'x and'", .not node]
     parse query = .ok e ∧ Expr.Below 2 node e ∧
       2 ≤ 255 ∧ IsCutFrom query.toList "c" ∧ IsCutFrom query.toList "d (e = f)") ∧
    (let query := " a = (b = c) "
     let error := FilterError.malformed query
       (.unexpectedOperator (.compare .eq) "b = c" (.compare .eq))
     parse query = .error error ∧ ∃ cause, error = .malformed query cause) := by
  have hparse : parse " ((((a) b) = ('x and')) or not(( c like (d (e = f)) )))" =
      .ok (.join .or [.compare .eq "(a) b" "'x and'", .not (.like "c" "d (e = f)")]) := by
    decide +kernel
  have hbelow : Expr.Below 2 (.like "c" "d (e = f)")
      (.join .or [.compare .eq "(a) b" "'x and'", .not (.like "c" "d (e = f)")]) :=
    .join .or (by simp) (.not (.root _))
  have herror : parse " a = (b = c) " = .error (.malformed " a = (b = c) "
      (.unexpectedOperator (.compare .eq) "b = c" (.compare .eq))) := by
    decide +kernel
  obtain ⟨hle, hcut⟩ := (parse_shape _).1 _ hparse 2 _ hbelow
  exact ⟨⟨hparse, hbelow, hle, hcut⟩, herror, (parse_shape _).2 _ herror⟩

end FeatureQuery
