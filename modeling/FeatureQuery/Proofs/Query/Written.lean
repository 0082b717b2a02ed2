import FeatureQuery.Proofs.Query.Pieces

/-!
# How queries are written

`Written cs e` builds the text of a query from the inside out, as `Reads` takes it apart from the
outside in: conditions of two operands and a sign or `like` between them, put together by `and`,
`or` and `not`, with blanks and parentheses around them. Every text that is built so denotes its
condition (`Written.denotes`), and every text that denotes a condition is built so, unless a quote
follows a word directly in it (`Denotes.written`). What holds of the texts of all queries may then
be proved by induction on how they are written.
-/

namespace FeatureQuery

/-- The text is written as the condition, however many levels it has. -/
inductive Written : List Char → Expr → Prop where
  /-- A blank before a condition. -/
  | cons_blank {c : Char} {cs : List Char} {e : Expr} (blank : Text.isBlank c = true)
      (body : Written cs e) : Written (c :: cs) e
  /-- A blank after a condition. -/
  | concat_blank {c : Char} {cs : List Char} {e : Expr} (blank : Text.isBlank c = true)
      (body : Written cs e) : Written (cs ++ [c]) e
  /-- Parentheses around a condition. -/
  | group {cs : List Char} {e : Expr} (body : Written cs e) : Written ('(' :: cs ++ [')']) e
  /-- A connective between two conditions. -/
  | join {cs ds : List Char} {connective : Connective} {first second : Expr}
      (left : Written cs first) (right : Written ds second)
      (splits : (Operator.join connective).Splits cs ds) :
      Written (cs ++ ((Operator.join connective).text.toList ++ ds))
        (.join connective [first, second])
  /-- A condition after `not`, with nothing that counts before it. -/
  | not {cs ds : List Char} {operand : Expr} (left : stripWrapping cs = [])
      (right : Written ds operand) (splits : Operator.not.Splits cs ds) :
      Written (cs ++ (Operator.not.text.toList ++ ds)) (.not operand)
  /-- A pattern after a field and `like`. -/
  | like {cs ds : List Char} (left : IsOperand (stripWrapping cs))
      (right : IsOperand (stripWrapping ds)) (splits : Operator.like.Splits cs ds) :
      Written (cs ++ (Operator.like.text.toList ++ ds))
        (.like (String.ofList (stripWrapping cs)) (String.ofList (stripWrapping ds)))
  /-- A value after a field and a sign. -/
  | compare {cs ds : List Char} {op : Comparison} (left : IsOperand (stripWrapping cs))
      (right : IsOperand (stripWrapping ds)) (splits : (Operator.compare op).Splits cs ds) :
      Written (cs ++ ((Operator.compare op).text.toList ++ ds))
        (.compare op (String.ofList (stripWrapping cs)) (String.ofList (stripWrapping ds)))

variable {cs : List Char} {e : Expr}

/-- **A text denotes the condition as which it is written.** -/
theorem Written.denotes (h : Written cs e) : Denotes cs e := by
  induction h with
  | cons_blank blank _ ih => exact ih.cons_blank blank
  | concat_blank blank _ ih => exact ih.concat_blank blank
  | group _ ih => exact ih.group
  | join _ _ splits ihl ihr => exact ihl.join ihr splits
  | not left _ splits ih => exact .not left ih splits
  | like left right splits => exact .like left right splits
  | compare left right splits => exact .compare left right splits

/-- What is left of a text is written as the whole text is. -/
theorem Written.of_stripWrapping (h : Written (stripWrapping cs) e) :
    Written cs e := by
  refine FeatureQuery.of_stripWrapping (P := fun cs => Written cs e)
    (fun hb _ => .cons_blank hb) (fun hb _ => .concat_blank hb) (fun _ => .group) h

/-- A text that reads as a condition is written as that condition. -/
theorem Reads.written (h : Reads cs e) (hc : Balanced cs) (hq : ¬ QuoteFollowsWord cs) :
    Written cs e := by
  induction h with
  | join split left right ihl ihr =>
    obtain ⟨⟨hb, hqb⟩, ha, hqa⟩ := hc.sides hq split
    have hsplits := hc.splits hq split (by simp [Operator.isWord])
    rw [eq_append_of_findNextOperator split]
    exact .join (.of_stripWrapping (ihl hb.stripWrapping fun hs => hqb hs.of_stripWrapping))
      (.of_stripWrapping (ihr ha.stripWrapping fun hs => hqa hs.of_stripWrapping)) hsplits
  | not split left right ih =>
    obtain ⟨-, ha, hqa⟩ := hc.sides hq split
    have hsplits := hc.splits hq split (by simp [Operator.isWord])
    rw [eq_append_of_findNextOperator split]
    exact .not left
      (.of_stripWrapping (ih ha.stripWrapping fun hs => hqa hs.of_stripWrapping)) hsplits
  | like split left right =>
    have hsplits := hc.splits hq split (by simp [Operator.isWord])
    rw [eq_append_of_findNextOperator split]
    exact .like left right hsplits
  | compare split left right =>
    have ha := (hc.sides hq split).2.1
    have hsplits := hc.splits hq split fun _ =>
      findOperator_of_stripWrapping ha (findNextOperator_eq_none_iff.mp right.2 .comparison)
    rw [eq_append_of_findNextOperator split]
    exact .compare left right hsplits

/-- **A text that denotes a condition is written as that condition**, unless a quote follows a word
directly in it. -/
theorem Denotes.written (h : Denotes cs e) (hq : ¬ QuoteFollowsWord cs) : Written cs e :=
  .of_stripWrapping (h.2.written h.1.stripWrapping fun hs => hq hs.of_stripWrapping)

end FeatureQuery
