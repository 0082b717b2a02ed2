import FeatureQuery.Proofs.Query.Printing
import FeatureQuery.Proofs.Query.Replacing

/-!
# Chains of conditions

Conditions that are written one after the other, with `and` and `or` between them in any order and
without parentheses, nest to the right: the first connective is the root of the tree, whichever it
is, and the chain after it its second operand. A chain of 256 conditions is read, and one more makes
it too deep (`parse_chainText`).

The text of one condition holds no connective (`Expr.IsLeaf.findOperator_logical`), so the first one
of a chain is where its text splits, and what stands after it is a shorter chain
(`Expr.denotes_chainText`).
-/

namespace FeatureQuery

namespace Expr

/-- A condition of its own: no connective, and no `not`. -/
def IsLeaf : Expr → Prop
  | .compare .. => True
  | .like .. => True
  | .not _ => False
  | .join .. => False

/-- The text of a condition and those that follow it, each after its connective. -/
def chainText (first : Expr) : List (Connective × Expr) → String
  | [] => first.text
  | (connective, next) :: rest =>
    first.text ++ " " ++ connective.text ++ " " ++ chainText next rest

/-- A condition joined with those that follow it, nested to the right. -/
def chain (first : Expr) : List (Connective × Expr) → Expr
  | [] => first
  | (connective, next) :: rest => .join connective [first, chain next rest]

/-! ### One condition -/

section Leaf

variable {e : Expr}

theorem IsLeaf.depth_eq (h : e.IsLeaf) : e.depth = 0 := by
  cases e with
  | compare => rfl
  | like => rfl
  | not => exact h.elim
  | join => exact h.elim

theorem IsLeaf.isBinary (h : e.IsLeaf) : e.IsBinary := by
  cases e with
  | compare => trivial
  | like => trivial
  | not => exact h.elim
  | join => exact h.elim

/-- The text of a condition denotes the condition. -/
theorem IsLeaf.denotes (h : e.IsLeaf) (hp : e.IsPrintable) : Denotes e.text.toList e := by
  have hdenotes := e.denotes_text hp
  rwa [e.rightNested_of_isBinary h.isBinary] at hdenotes

end Leaf

end Expr

/-- An operator of another tier between self-contained operands leaves the tier without one. -/
theorem IsSelfContained.findOperator_eq_none {left right : String} (hl : IsSelfContained left)
    (hr : IsSelfContained right) {op : Operator} {tier : Tier} (htier : tier ≠ op.tier) :
    findOperator tier (left.toList ++ [' '] ++ (op.text.toList ++ ' ' :: right.toList)) = none := by
  rw [(hl.splits hr op).findOperator_eq_none_iff]
  refine ⟨?_, findOperator_text_of_ne htier, ?_⟩
  · exact (findOperator_concat_blank_eq_none_iff rfl hl.balanced).mpr
      (findNextOperator_eq_none_iff.mp hl.noOperator tier)
  · exact (findOperator_cons_blank_eq_none_iff rfl).mpr
      (findNextOperator_eq_none_iff.mp hr.noOperator tier)

namespace Expr

/-- **The text of a condition holds no connective.** -/
theorem IsLeaf.findOperator_logical {e : Expr} (h : e.IsLeaf) (hp : e.IsPrintable) :
    findOperator .logical e.text.toList = none := by
  cases e with
  | compare op field value =>
    have hne : Tier.logical ≠ (Operator.compare op).tier := by simp [Operator.tier]
    have hnone := hp.1.findOperator_eq_none hp.2 hne
    simpa [text, Operator.text] using hnone
  | like field pattern =>
    have hne : Tier.logical ≠ Operator.like.tier := by simp [Operator.tier]
    have hnone := hp.1.findOperator_eq_none hp.2 hne
    simpa [text, Operator.text] using hnone
  | not => exact h.elim
  | join => exact h.elim

/-! ### The chain -/

variable {first : Expr} {rest : List (Connective × Expr)}

/-- A chain has a level for every connective. -/
theorem depth_chain (h : ∀ e ∈ first :: rest.map Prod.snd, e.IsLeaf) :
    (chain first rest).depth = rest.length := by
  induction rest generalizing first with
  | nil => exact (h first List.mem_cons_self).depth_eq
  | cons link rest ih =>
    obtain ⟨connective, next⟩ := link
    have hfirst := (h first List.mem_cons_self).depth_eq
    have hrest := ih fun e he => h e (List.mem_cons_of_mem _ he)
    simp [chain, depth, depthOfAll, hfirst, hrest]

theorem toList_chainText_cons (first next : Expr) (connective : Connective)
    (rest : List (Connective × Expr)) :
    (chainText first ((connective, next) :: rest)).toList =
      first.text.toList ++ [' '] ++
        ((Operator.join connective).text.toList ++ ' ' :: (chainText next rest).toList) := by
  simp [chainText, Operator.text]

/-- **The text of a chain denotes the chain**, nested to the right. -/
theorem denotes_chainText (h : ∀ e ∈ first :: rest.map Prod.snd, e.IsLeaf ∧ e.IsPrintable) :
    Denotes (chainText first rest).toList (chain first rest) := by
  induction rest generalizing first with
  | nil =>
    obtain ⟨hleaf, hprintable⟩ := h first List.mem_cons_self
    exact hleaf.denotes hprintable
  | cons link rest ih =>
    obtain ⟨connective, next⟩ := link
    obtain ⟨hleaf, hprintable⟩ := h first List.mem_cons_self
    have hfirst := hleaf.denotes hprintable
    have hrest := ih fun e he => h e (List.mem_cons_of_mem _ he)
    -- connectives are the weakest tier, so nothing is asked of the chain after the first one
    have hsplits : (Operator.join connective).Splits (first.text.toList ++ [' '])
        (' ' :: (chainText next rest).toList) := by
      refine Operator.splits_between_blanks rfl hrest.1
        (fun tier hlt => absurd hlt (Nat.not_lt_zero _)) rfl hfirst.1 fun tier hle => ?_
      obtain rfl : tier = .logical := by
        cases tier <;> simp_all [Operator.tier, Tier.rank]
      exact hleaf.findOperator_logical hprintable
    rw [toList_chainText_cons]
    exact (hfirst.concat_blank rfl).join (hrest.cons_blank rfl) hsplits

end Expr

/-- **Chains nest to the right, up to 256 conditions.** Conditions of self-contained operands with
connectives between them are read as the chain that nests to the right, the connectives taken as
they come, if there are at most 256 of them; any longer chain is refused as too deep. -/
theorem parse_chainText {first : Expr} {rest : List (Connective × Expr)}
    (h : ∀ e ∈ first :: rest.map Prod.snd, e.IsLeaf ∧ e.IsPrintable) :
    (rest.length + 1 ≤ 256 → parse (Expr.chainText first rest) = .ok (Expr.chain first rest)) ∧
      (257 ≤ rest.length + 1 → parse (Expr.chainText first rest) =
          .error (.malformed (Expr.chainText first rest) .tooDeep) ∧
        Malformed.tooDeep.message = "query nests too deeply") := by
  have hdenotes := Expr.denotes_chainText h
  have hdepth : (Expr.chain first rest).depth = rest.length :=
    Expr.depth_chain fun e he => (h e he).1
  exact ⟨fun hle => hdenotes.parse_eq_ok (by omega),
    fun hlt => ⟨hdenotes.parse_eq_tooDeep (by omega), rfl⟩⟩

/-- Connectives that change, operands with a word, a sign and an apostrophe in them; and 256
conditions, and 257. -/
theorem parse_chainText_mixed :
    (let rest : List (Connective × Expr) :=
        [(.or, .like "zona" "'a and b'"), (.and, .compare .ne "L'Hospitalet" "(x = 1)y"),
          (.or, .compare .eq "x" "2")]
      let first := Expr.compare .le "color" "rojo"
      Expr.chainText first rest =
          "color <= rojo or zona like 'a and b' and L'Hospitalet <> (x = 1)y or x = 2" ∧
        (∀ e ∈ first :: rest.map Prod.snd, e.IsLeaf ∧ e.IsPrintable) ∧
        parse (Expr.chainText first rest) = .ok (Expr.chain first rest)) ∧
    let e := Expr.compare .eq "x" "1"
    let rest n := List.replicate n (Connective.and, e)
    (∀ n, ∀ f ∈ e :: (rest n).map Prod.snd, f.IsLeaf ∧ f.IsPrintable) ∧
      parse (Expr.chainText e (rest 255)) = .ok (Expr.chain e (rest 255)) ∧
      parse (Expr.chainText e (rest 256)) =
        .error (.malformed (Expr.chainText e (rest 256)) .tooDeep) := by
  constructor
  · intro rest first
    have h : ∀ e ∈ first :: rest.map Prod.snd, e.IsLeaf ∧ e.IsPrintable := by
      simp only [rest, first, List.map_cons, List.map_nil, List.forall_mem_cons, List.not_mem_nil,
        false_imp_iff, implies_true, and_true]
      refine ⟨⟨trivial, ?_, ?_⟩, ⟨trivial, ?_, ?_⟩, ⟨trivial, ?_, ?_⟩, trivial, ?_, ?_⟩ <;>
        decide +kernel
    exact ⟨by decide +kernel, h, (parse_chainText h).1 (by decide)⟩
  · intro e rest
    have he : e.IsLeaf ∧ e.IsPrintable := ⟨trivial, by decide +kernel, by decide +kernel⟩
    have h : ∀ n, ∀ f ∈ e :: (rest n).map Prod.snd, f.IsLeaf ∧ f.IsPrintable := by
      intro n f hf
      obtain rfl : f = e := by simpa [rest, or_iff_left_of_imp] using hf
      exact he
    have hlength : ∀ n, (rest n).length = n := fun n => List.length_replicate
    exact ⟨h, (parse_chainText (h 255)).1 (by simp [hlength]),
      ((parse_chainText (h 256)).2 (by simp [hlength])).1⟩

end FeatureQuery
