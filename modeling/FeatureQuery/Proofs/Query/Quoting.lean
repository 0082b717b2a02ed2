import FeatureQuery.Proofs.Query.Printing
import FeatureQuery.Proofs.Wildcards.Keyword

/-!
# Quoted operands

Any text becomes an operand when it is written between single quotes with its own quotes doubled:
`quoted s` is self-contained whatever `s` is (`isSelfContained_quoted`). The scan of the brackets
and the searches for operators pass over it because the cursor stays in the literal up to its last
quote (`Cursor.run_quote`, `findOperator_quote`), and so does the search for `like`
(`Wildcards.splitKeyword?_quote`).
-/

namespace FeatureQuery

/-- The text between single quotes, with every single quote in it written twice. -/
def quoted (s : String) : String := String.ofList (Text.quote s.toList)

@[simp] theorem toList_quoted (s : String) : (quoted s).toList = Text.quote s.toList :=
  String.toList_ofList

/-! ### In a literal -/

/-- **In a literal** a text with its quotes doubled leads nowhere else. -/
theorem Cursor.run_double {k : Cursor} (hk : k.quoting = .inside) (cs : List Char) :
    ∃ p, k.run (Text.double cs) = some ⟨p, k.depth, .inside⟩ := by
  induction cs generalizing k with
  | nil => exact ⟨k.previous, by simp [Text.double, Cursor.run, ← hk]⟩
  | cons c cs ih =>
    by_cases hc : c = '\''
    · obtain ⟨p, hp⟩ := @ih ⟨some c, k.depth, .inside⟩ rfl
      exact ⟨p, by simp [Text.double, Cursor.run, Cursor.next, Quoting.next, hk, hc, ← hp]⟩
    · obtain ⟨p, hp⟩ := @ih ⟨some c, k.depth, .inside⟩ rfl
      exact ⟨p, by simp [Text.double, Cursor.run, Cursor.next, Quoting.next, hk, hc, ← hp]⟩

theorem Cursor.run_quote (cs : List Char) :
    Cursor.start.run (Text.quote cs) = some ⟨some '\'', 0, .ended⟩ := by
  obtain ⟨p, hp⟩ := @Cursor.run_double ⟨some '\'', 0, .inside⟩ rfl cs
  have hopen : Cursor.start.next '\'' = some ⟨some '\'', 0, .inside⟩ := rfl
  rw [Text.quote, Cursor.run, hopen, Option.bind_some, Cursor.run_append, hp]
  rfl

theorem balanced_quote (cs : List Char) : Balanced (Text.quote cs) :=
  ⟨_, Cursor.run_quote cs, rfl, by simp⟩

/-- In a literal no operator is found. -/
theorem findOperatorFrom_double (tier : Tier) {k : Cursor} (hk : k.quoting = .inside)
    (cs : List Char) : findOperatorFrom tier k (Text.double cs ++ ['\'']) = none := by
  induction cs generalizing k with
  | nil =>
    simp [Text.double, findOperatorFrom, operatorAt?, Cursor.isPlain, Quoting.next, hk, Cursor.next]
  | cons c cs ih =>
    have hrest := @ih ⟨some c, k.depth, .inside⟩ rfl
    by_cases hc : c = '\''
    · subst hc
      simp [Text.double, findOperatorFrom, operatorAt?, Cursor.isPlain, Quoting.next, hk,
        Cursor.next, hrest]
    · simp [Text.double, findOperatorFrom, operatorAt?, Cursor.isPlain, Quoting.next, hk, hc,
        Cursor.next, hrest]

theorem findOperator_quote (tier : Tier) (cs : List Char) :
    findOperator tier (Text.quote cs) = none := by
  have hopen : Cursor.start.isPlain '\'' = false := rfl
  have hnext : Cursor.start.next '\'' = some ⟨some '\'', 0, .inside⟩ := rfl
  rw [findOperator, Text.quote, findOperatorFrom, operatorAt?, hopen, hnext]
  simp [findOperatorFrom_double]

theorem stripWrapping_quote (cs : List Char) :
    stripWrapping (Text.quote cs) = Text.quote cs := by
  refine stripWrapping_eq_self_iff.mpr ⟨Text.trim_eq_self rfl ?_, ?_⟩
  · rw [Text.quote, ← List.cons_append, List.getLast?_concat]
    rfl
  · rintro inside ⟨rest, heq, -⟩
    simp [Text.quote] at heq

/-- **Every quoted text** is a self-contained operand. -/
theorem isSelfContained_quoted (s : String) : IsSelfContained (quoted s) := by
  refine ⟨?_, ?_, ?_, ?_⟩ <;> rw [toList_quoted]
  · simp [Text.quote]
  · exact stripWrapping_quote s.toList
  · exact checkBalance_eq_ok_iff.mpr (balanced_quote s.toList)
  · exact findNextOperator_eq_none_iff.mpr fun tier => findOperator_quote tier s.toList

/-! ### The search for `like` -/

namespace Wildcards

/-- In a literal no keyword is found. -/
theorem splitKeyword?_double (p : Option Char) (cs : List Char) :
    splitKeyword? p .inside (Text.double cs ++ ['\'']) = none := by
  induction cs generalizing p with
  | nil => simp [Text.double, splitKeyword?, Quoting.next]
  | cons c cs ih =>
    by_cases hc : c = '\''
    · simp [Text.double, splitKeyword?, Quoting.next, hc, ih]
    · simp [Text.double, splitKeyword?, Quoting.next, hc, ih]

theorem splitKeyword?_quote (cs : List Char) :
    splitKeyword? none .outside (Text.quote cs) = none := by
  have hopen : Quoting.outside.next none '\'' = .inside := rfl
  rw [Text.quote, splitKeyword?, hopen]
  simp [splitKeyword?_double]

/-- **A comparison of quoted texts** holds no keyword. -/
theorem splitKeyword?_compare_quote (op : Comparison) (cs ds : List Char) :
    splitKeyword? none .outside
      (Text.quote cs ++ ' ' :: (op.text.toList ++ ' ' :: Text.quote ds)) = none := by
  have hblank : Text.isBlank ' ' = true := rfl
  have hop : splitKeyword? none .outside (Operator.compare op).text.toList = none :=
    splitKeyword?_text (by simp)
  have hfield := passesOver_of_balanced (balanced_quote cs) (splitKeyword?_quote cs)
    (apart_cons_blank hblank _ (op.text.toList ++ ' ' :: Text.quote ds))
  have hsign := passesOver_of_balanced (Operator.compare op).balanced_text hop
    (apart_cons_blank hblank _ (Text.quote ds))
  rw [hfield.eq_none_iff, ← List.singleton_append, (passesOver_blank hblank _).eq_none_iff]
  refine hsign.eq_none_iff.mpr ?_
  rw [← List.singleton_append, (passesOver_blank hblank _).eq_none_iff]
  exact splitKeyword?_quote ds

theorem toPattern_compare_quoted (op : Comparison) (field value : String) :
    toPattern (quoted field ++ " " ++ op.text ++ " " ++ quoted value) =
      quoted field ++ " " ++ op.text ++ " " ++ quoted value := by
  have htext : (quoted field ++ " " ++ op.text ++ " " ++ quoted value).toList =
      Text.quote field.toList ++ ' ' :: (op.text.toList ++ ' ' :: Text.quote value.toList) := by
    simp
  have hnone : splitKeyword? none .outside
      (quoted field ++ " " ++ op.text ++ " " ++ quoted value).toList = none := by
    rw [htext]
    exact splitKeyword?_compare_quote op field.toList value.toList
  rw [toPattern, mapOperands_of_none hnone, String.ofList_toList]

end Wildcards

/-! ### Queries on quoted texts -/

/-- **A comparison of quoted texts** is read as one comparison. -/
theorem parse_compare_quoted (op : Comparison) (field value : String) :
    parse (quoted field ++ " " ++ op.text ++ " " ++ quoted value) =
      .ok (.compare op (quoted field) (quoted value)) :=
  (isSelfContained_quoted field).parse_compare (isSelfContained_quoted value) op

/-- **A match of quoted texts** is read as one match. -/
theorem parse_like_quoted (field pattern : String) :
    parse (quoted field ++ " like " ++ quoted pattern) =
      .ok (.like (quoted field) (quoted pattern)) :=
  (isSelfContained_quoted field).parse_like (isSelfContained_quoted pattern)

end FeatureQuery
