import FeatureQuery.Proofs.Query.Reading

/-!
# Queries in parentheses

A query that is read keeps its meaning in parentheses, whatever quotes, words and groups it holds
and wherever they stand in it. Two queries in parentheses, with a connective between them or `not`
before one, are read as the connective or the opposite of their conditions, unless the result is too
deep; and parentheses alone, as many as there may be and with any blanks inside and around them,
change nothing (`parse_groupings`). Both follow from what the texts denote: `Denotes` knows no limit
on the levels, and a group denotes what its text denotes.
-/

namespace FeatureQuery

/-- The text in the given number of pairs of parentheses, with any blanks inside and around them. -/
inductive Enclosed (cs : List Char) : Nat → List Char → Prop where
  /-- The text itself. -/
  | bare : Enclosed cs 0 cs
  /-- A blank before what is there. -/
  | cons_blank {n : Nat} {c : Char} {ds : List Char} (blank : Text.isBlank c = true)
      (body : Enclosed cs n ds) : Enclosed cs n (c :: ds)
  /-- A blank after what is there. -/
  | concat_blank {n : Nat} {c : Char} {ds : List Char} (blank : Text.isBlank c = true)
      (body : Enclosed cs n ds) : Enclosed cs n (ds ++ [c])
  /-- One more pair of parentheses. -/
  | group {n : Nat} {ds : List Char} (body : Enclosed cs n ds) :
      Enclosed cs (n + 1) ('(' :: ds ++ [')'])

/-- The ways to put two queries together in parentheses, with the conditions that come of it. -/
def groupings (q₁ q₂ : String) (e₁ e₂ : Expr) : List (String × Expr) :=
  [("(" ++ q₁ ++ ") and (" ++ q₂ ++ ")", .join .and [e₁, e₂]),
    ("(" ++ q₁ ++ ") or (" ++ q₂ ++ ")", .join .or [e₁, e₂]),
    ("not (" ++ q₁ ++ ")", .not e₁),
    ("(" ++ q₁ ++ ") and not (" ++ q₂ ++ ")", .join .and [e₁, .not e₂])]

section Denotes

variable {cs ds : List Char} {e : Expr} {n : Nat}

/-- **Parentheses and blanks** around a text do not change what it denotes. -/
theorem Denotes.enclosed (h : Denotes cs e) (hds : Enclosed cs n ds) : Denotes ds e := by
  induction hds with
  | bare => exact h
  | cons_blank blank _ ih => exact ih.cons_blank blank
  | concat_blank blank _ ih => exact ih.concat_blank blank
  | group _ ih => exact ih.group

/-- **Queries put together in parentheses** denote their conditions put together. -/
theorem denotes_groupings {q₁ q₂ : String} {e₁ e₂ : Expr} (h₁ : Denotes q₁.toList e₁)
    (h₂ : Denotes q₂.toList e₂) :
    ∀ g ∈ groupings q₁ q₂ e₁ e₂, Denotes g.1.toList g.2 := by
  simp only [groupings, List.forall_mem_cons, List.not_mem_nil, false_imp_iff, implies_true,
    and_true]
  refine ⟨?_, ?_, ?_, ?_⟩
  · simpa [Connective.text] using h₁.join_group h₂.group .and
  · simpa [Connective.text] using h₁.join_group h₂.group .or
  · simpa [Operator.text] using h₁.not_group
  · simpa [Connective.text, Operator.text] using h₁.join_group h₂.not_group .and

end Denotes

/-- Some query is read with any number of levels that is allowed. -/
theorem exists_parse_of_depth {n : Nat} (hn : n ≤ 255) : ∃ q e, parse q = .ok e ∧ e.depth = n := by
  induction n with
  | zero => exact ⟨"x = 1", .compare .eq "x" "1", by decide +kernel, rfl⟩
  | succ n ih =>
    obtain ⟨q, e, he, hdepth⟩ := ih (Nat.le_of_succ_le hn)
    have hnot : Denotes ("not (" ++ q ++ ")").toList (.not e) := by
      simpa [Operator.text] using (parse_eq_ok_iff.mp he).1.not_group
    have hlevels : (Expr.not e).depth = n + 1 := by rw [Expr.depth, hdepth]
    exact ⟨_, _, hnot.parse_eq_ok (hlevels ▸ hn), hlevels⟩

/-- **Grouping is compositional.** Queries that are read, put together in parentheses, are read as
their conditions put together if the result has at most 255 levels, and are refused as too deep if
it has more; and a query in any number of parentheses is read as the query. -/
theorem parse_groupings {q₁ q₂ : String} {e₁ e₂ : Expr} (h₁ : parse q₁ = .ok e₁)
    (h₂ : parse q₂ = .ok e₂) :
    (∀ g ∈ groupings q₁ q₂ e₁ e₂,
      (g.2.depth ≤ 255 → parse g.1 = .ok g.2) ∧
        (255 < g.2.depth → parse g.1 = .error (.malformed g.1 .tooDeep) ∧
          Malformed.tooDeep.message = "query nests too deeply")) ∧
      ∀ (n : Nat) (query : String), Enclosed q₁.toList n query.toList → parse query = .ok e₁ := by
  obtain ⟨hd₁, hlt₁⟩ := parse_eq_ok_iff.mp h₁
  obtain ⟨hd₂, -⟩ := parse_eq_ok_iff.mp h₂
  refine ⟨fun g hg => ?_, fun n query hquery => ?_⟩
  · have hg := denotes_groupings hd₁ hd₂ g hg
    exact ⟨hg.parse_eq_ok, fun hdeep => ⟨hg.parse_eq_tooDeep hdeep, rfl⟩⟩
  · exact parse_eq_ok_iff.mpr ⟨hd₁.enclosed hquery, hlt₁⟩

/-- An apostrophe and a literal with parentheses and a word in it, grouped with a quote that no
other closes; and as many levels as there may be, with one more around them. -/
theorem parse_groupings_quotes :
    (let q₁ := "nombre = L'Hospitalet or x <> 'a) and (b'"
     let q₂ := "zona like'b"
     let e₁ := Expr.join .or [.compare .eq "nombre" "L'Hospitalet", .compare .ne "x" "'a) and (b'"]
     let e₂ := Expr.like "zona" "'b"
     parse q₁ = .ok e₁ ∧ parse q₂ = .ok e₂ ∧
       parse ("(" ++ q₁ ++ ") and not (" ++ q₂ ++ ")") = .ok (.join .and [e₁, .not e₂]) ∧
       Enclosed q₁.toList 2 ("( (" ++ q₁ ++ " ))\t").toList ∧
       parse ("( (" ++ q₁ ++ " ))\t") = .ok e₁) ∧
    ∃ q e, parse q = .ok e ∧ e.depth = 255 ∧
      parse ("not (" ++ q ++ ")") = .error (.malformed ("not (" ++ q ++ ")") .tooDeep) := by
  constructor
  · intro q₁ q₂ e₁ e₂
    have h₁ : parse q₁ = .ok e₁ := by decide +kernel
    have h₂ : parse q₂ = .ok e₂ := by decide +kernel
    obtain ⟨hgroupings, henclosed⟩ := parse_groupings h₁ h₂
    have hnot : ("(" ++ q₁ ++ ") and not (" ++ q₂ ++ ")", Expr.join .and [e₁, .not e₂]) ∈
        groupings q₁ q₂ e₁ e₂ := by simp [groupings]
    have htwice : Enclosed q₁.toList 2 ("( (" ++ q₁ ++ " ))\t").toList := by
      have h : Enclosed q₁.toList 2
          ('(' :: ' ' :: ('(' :: (q₁.toList ++ [' ']) ++ [')']) ++ [')'] ++ ['\t']) :=
        .concat_blank rfl (.group (.cons_blank rfl (.group (.concat_blank rfl .bare))))
      simpa using h
    exact ⟨h₁, h₂, (hgroupings _ hnot).1 (by decide), htwice, henclosed 2 _ htwice⟩
  · obtain ⟨q, e, he, hdepth⟩ := exists_parse_of_depth (Nat.le_refl 255)
    have hnot : ("not (" ++ q ++ ")", Expr.not e) ∈ groupings q q e e := by simp [groupings]
    have hlt : 255 < (Expr.not e).depth := by simp [Expr.depth, hdepth]
    exact ⟨q, e, he, hdepth, (((parse_groupings he he).1 _ hnot).2 hlt).1⟩

end FeatureQuery
