import FeatureQuery.Proofs.Query.Printing
import FeatureQuery.Proofs.Wildcards.Keyword
import Mathlib.Data.List.TakeWhile

/-!
# The operands of `like`

Two scanners cut out the operand of `like`. The reader takes everything up to the next operator that
lies outside all groups and literals; the search for wildcards takes a literal, or the characters up
to the next blank or closing parenthesis. They cut out the same text if what the search takes is
**self-contained** and is followed by nothing that could belong to it (`eq_of_splitOperand`).
-/

namespace FeatureQuery

/-- A text that begins with an operator holds one. -/
theorem Tier.read?_eq_none_of_findOperator {tier : Tier} {cs : List Char}
    (h : findOperator tier cs = none) : tier.read? none cs = none := by
  rw [Option.eq_none_iff_forall_ne_some]
  rintro ⟨op, rest⟩ hread
  have heq := (Tier.eq_of_read? hread).2.1
  obtain ⟨c, tail, htext⟩ := List.exists_cons_of_ne_nil op.text_ne_nil
  have hquote : c ≠ '\'' := by
    rintro rfl
    exact op.quote_notMem_text (by simp [htext])
  have hplain : Cursor.start.isPlain c = true := by
    simp [Cursor.isPlain, Cursor.start, Quoting.next_eq_outside (q := .outside) (by simp) hquote]
  have hat := operatorAt?_eq_none h
  rw [heq, htext, List.cons_append, operatorAt?, if_pos hplain] at hat
  rw [heq, htext, List.cons_append] at hread
  exact absurd (hat.symm.trans hread) (by simp)

/-- No balanced text begins with a closing parenthesis. -/
theorem Balanced.head?_ne_close {cs : List Char} (h : Balanced cs) : cs.head? ≠ some ')' := by
  intro hhead
  obtain ⟨cs, rfl⟩ := List.head?_eq_some_iff.mp hhead
  obtain ⟨k, hk, -⟩ := h
  rw [Cursor.run, Cursor.next_close rfl (by simp [Cursor.start])] at hk
  simp at hk

namespace Text

/-- After a literal no quote follows. -/
theorem head?_ne_quote_of_closeLiteral {cs body rest : List Char}
    (h : closeLiteral cs = some (body, rest)) : rest.head? ≠ some '\'' := by
  fun_induction closeLiteral cs generalizing body with
  | case1 => simp at h
  | case2 cs ih =>
    obtain ⟨⟨b, r⟩, hb, heq⟩ := Option.map_eq_some_iff.mp h
    cases heq
    exact ih hb
  | case3 cs hne =>
    cases h
    intro hhead
    obtain ⟨tail, htail⟩ := List.head?_eq_some_iff.mp hhead
    exact hne tail rfl htail
  | case4 c cs _ hc ih =>
    obtain ⟨⟨b, r⟩, hb, heq⟩ := Option.map_eq_some_iff.mp h
    cases heq
    exact ih hb

/-- A quote that no other follows closes the literal. -/
theorem closeLiteral_quote {cs : List Char} (h : cs.head? ≠ some '\'') :
    closeLiteral ('\'' :: cs) = some ([], cs) := by
  cases cs with
  | nil => rfl
  | cons c cs =>
    have hc : c ≠ '\'' := by simpa using h
    rw [closeLiteral] <;> simp [hc]

theorem closeLiteral_cons {c : Char} (hc : c ≠ '\'') (cs : List Char) :
    closeLiteral (c :: cs) = (closeLiteral cs).map fun (body, rest) => (c :: body, rest) := by
  rw [closeLiteral] <;> simp [hc]

end Text

/-- **A literal closes** where the cursor that reads it comes out of it, before any text that begins
with no quote: in the literal, and after a quote in it. -/
theorem closeLiteral_of_run {ds : List Char} (hds : ds.head? ≠ some '\'') {cs : List Char}
    {k k' : Cursor} (hk : k.run cs = some k') (hk' : k'.quoting ≠ .inside) :
    (k.quoting = .inside →
      ∃ body rest, Text.closeLiteral (cs ++ ds) = some (body, rest ++ ds)) ∧
    (k.quoting = .ended →
      ∃ body rest, Text.closeLiteral ('\'' :: (cs ++ ds)) = some (body, rest ++ ds)) := by
  induction cs generalizing k with
  | nil =>
    cases hk
    exact ⟨fun h => absurd h hk', fun _ => ⟨[], [], Text.closeLiteral_quote hds⟩⟩
  | cons c cs ih =>
    obtain ⟨k₁, hk₁, hrun⟩ := Option.bind_eq_some_iff.mp hk
    obtain ⟨hinside, hended⟩ := ih hrun
    obtain ⟨depth, rfl⟩ := Cursor.eq_of_next hk₁
    by_cases hc : c = '\''
    · subst hc
      refine ⟨fun hq => hended (by simp [hq, Quoting.next]), fun hq => ?_⟩
      obtain ⟨body, rest, hclose⟩ := hinside (by simp [hq, Quoting.next])
      exact ⟨_, rest, by rw [List.cons_append, Text.closeLiteral, hclose]; rfl⟩
    · refine ⟨fun hq => ?_, fun hq => ⟨[], c :: cs, Text.closeLiteral_quote (by simpa using hc)⟩⟩
      obtain ⟨body, rest, hclose⟩ := hinside (by simp [hq, Quoting.next, hc])
      exact ⟨_, rest, by rw [List.cons_append, Text.closeLiteral_cons hc, hclose]; rfl⟩

namespace Wildcards

/-! ### What the search takes -/

section Taken

variable {cs o rest : List Char}

theorem append_of_splitOperand (h : splitOperand cs = (o, rest)) : o ++ rest = cs := by
  simpa [h] using splitOperand_append cs

/-- The search takes a literal, all of a text in which a literal never ends, or what comes before
the next blank or closing parenthesis. -/
theorem splitOperand_cases (h : splitOperand cs = (o, rest)) :
    (∃ tail body, cs = '\'' :: tail ∧ Text.closeLiteral tail = some (body, rest) ∧
      o = '\'' :: (body ++ ['\''])) ∨
    (∃ tail, cs = '\'' :: tail ∧ Text.closeLiteral tail = none ∧ o = cs ∧ rest = []) ∨
    (cs.head? ≠ some '\'' ∧ o.all (fun c => !endsOperand c) = true ∧
      rest.head?.all endsOperand = true) := by
  unfold splitOperand at h
  split at h
  · rename_i tail
    split at h
    · rename_i body r hclose
      cases h
      exact .inl ⟨tail, body, rfl, hclose, rfl⟩
    · rename_i hclose
      cases h
      exact .inr (.inl ⟨tail, rfl, hclose, rfl, rfl⟩)
  · rename_i hplain
    cases h
    refine .inr (.inr ⟨fun hquote => ?_, by simp, ?_⟩)
    · obtain ⟨tail, htail⟩ := List.head?_eq_some_iff.mp hquote
      exact hplain tail htail
    · have hhead := List.head?_dropWhile_not (fun c => !endsOperand c) cs
      cases hdrop : (cs.dropWhile fun c => !endsOperand c).head? with
      | none => rfl
      | some c => simpa [hdrop] using hhead

/-- An operand that is no literal goes on to the character that ends it, and no further. -/
theorem splitOperand_append_of_plain (ho : ∀ c ∈ o, endsOperand c = false)
    (hrest : rest.head?.all endsOperand = true) (hquote : (o ++ rest).head? ≠ some '\'') :
    splitOperand (o ++ rest) = (o, rest) := by
  unfold splitOperand
  split
  · rename_i heq
    simp [heq] at hquote
  · have htake : rest.takeWhile (fun c => !endsOperand c) = [] := by
      cases rest <;> simp_all
    have hdrop : rest.dropWhile (fun c => !endsOperand c) = rest := by
      cases rest <;> simp_all
    rw [List.takeWhile_append_of_pos (by simpa using ho), htake, List.append_nil,
      List.dropWhile_append_of_pos (by simpa using ho), hdrop]

/-- An operand that is not empty begins with no blank. -/
theorem isBlank_of_splitOperand (h : splitOperand cs = (o, rest)) (hne : o ≠ []) :
    cs.head?.any Text.isBlank = false := by
  have hquote : Text.isBlank '\'' = false := by decide +kernel
  obtain ⟨tail, body, rfl, -, -⟩ | ⟨tail, rfl, -, -, -⟩ | ⟨-, ho, -⟩ := splitOperand_cases h
  · simpa using hquote
  · simpa using hquote
  · obtain ⟨c, o, rfl⟩ := List.exists_cons_of_ne_nil hne
    have hc := List.all_eq_true.mp ho c List.mem_cons_self
    rw [← append_of_splitOperand h]
    simp only [endsOperand, Bool.not_eq_true', Bool.or_eq_false_iff] at hc
    exact hc.1

/-- What the search takes is apart from what it leaves. -/
theorem apart_splitOperand (h : splitOperand cs = (o, rest)) : Apart o rest := by
  obtain ⟨tail, body, -, hclose, rfl⟩ | ⟨tail, -, -, -, rfl⟩ | ⟨-, -, hrest⟩ :=
    splitOperand_cases h
  · have hlast : ('\'' :: (body ++ ['\''])).getLast? = some '\'' := by
      rw [← List.cons_append, List.getLast?_concat]
    exact ⟨.inl (by rw [hlast]; rfl),
      fun hquote => absurd hquote (Text.head?_ne_quote_of_closeLiteral hclose)⟩
  · exact ⟨.inr rfl, by simp⟩
  · cases rest with
    | nil => exact ⟨.inr rfl, by simp⟩
    | cons c rest =>
      have hc : Text.isBlank c = true ∨ c = ')' := by simpa [endsOperand] using hrest
      rcases hc with hb | rfl
      · exact apart_cons_blank hb o rest
      · exact apart_of_head? o rfl (by simp)

end Taken

/-! ### What the reader takes -/

/-- What may follow a condition in a query: nothing, a blank, a closing parenthesis, or a connective
that no letter touches. -/
inductive Follows (cs : List Char) : List Char → Prop where
  /-- The query ends. -/
  | nil : Follows cs []
  /-- A blank follows. -/
  | blank {c : Char} (hc : Text.isBlank c = true) (tail : List Char) : Follows cs (c :: tail)
  /-- The group ends. -/
  | close (tail : List Char) : Follows cs (')' :: tail)
  /-- The condition is joined with another. -/
  | join (connective : Connective) {tail : List Char}
      (before : cs.getLast?.any Char.isAlpha = false)
      (after : tail.head?.any Char.isAlpha = false) :
      Follows cs ((Operator.join connective).text.toList ++ tail)

theorem Follows.apart {cs tail : List Char} (h : Follows cs tail) : Apart cs tail := by
  cases h with
  | nil => exact ⟨.inr rfl, by simp⟩
  | blank hc tail => exact apart_cons_blank hc cs tail
  | close tail => exact apart_of_head? cs rfl (by simp)
  | join connective before after =>
    refine ⟨.inl before, fun hquote => ?_⟩
    cases connective <;> simp [Operator.text, Connective.text] at hquote

/-- Only the end of the condition matters. -/
theorem Follows.of_getLast? {cs ds tail : List Char} (h : Follows cs tail)
    (hlast : ds.getLast? = cs.getLast?) : Follows ds tail := by
  cases h with
  | nil => exact .nil
  | blank hc tail => exact .blank hc tail
  | close tail => exact .close tail
  | join connective before after => exact .join connective (hlast ▸ before) after

theorem Follows.of_append {bs ds tail : List Char} {op : Operator}
    (h : Follows (bs ++ (op.text.toList ++ ds)) tail) (hne : ds ≠ []) : Follows ds tail :=
  h.of_getLast? (by rw [← List.append_assoc, List.getLast?_append_of_ne_nil _ hne])

/-- Whether nothing that belongs to an operand follows it: after the blanks the text ends, or a
group or a connective does. -/
def endsCondition (cs : List Char) : Bool :=
  match Text.trimStart cs with
  | [] => true
  | c :: cs => c == ')' || (Tier.logical.read? none (c :: cs)).isSome

/-- What follows the operand that the search takes cannot belong to the operand that the reader
takes. -/
theorem eq_nil_of_endsCondition {o a tail : List Char} (ho : Balanced o) (hne : o ≠ [])
    (ha : Apart o a) (hp : Balanced (o ++ a)) (hop : IsOperand (stripWrapping (o ++ a)))
    (htrim : Text.trim (o ++ a) = o ++ a) (htail : Apart (o ++ a) tail)
    (hends : endsCondition (a ++ tail) = true) : a = [] := by
  by_contra hnil
  have hnone : findOperator .logical (o ++ a) = none := by
    have hstrip : stripWrapping (o ++ a) = o ++ a :=
      stripWrapping_eq_self_iff.mpr ⟨htrim, ho.not_isGroup_append hne hnil⟩
    exact findNextOperator_eq_none_iff.mp (hstrip ▸ hop.2) .logical
  have hlast : a.getLast?.any Text.isBlank = false := by
    have h := (Text.trim_eq_self_iff.mp htrim).2
    rwa [List.getLast?_append_of_ne_nil _ hnil] at h
  have hstart : Text.trimStart a ≠ [] := by
    intro hstart
    have hall : ∀ c ∈ a, Text.isBlank c = true := List.dropWhile_eq_nil_iff.mp hstart
    rw [List.getLast?_eq_some_getLast hnil, Option.any_some,
      hall _ (List.getLast_mem hnil)] at hlast
    simp at hlast
  have happend : Text.trimStart (a ++ tail) = Text.trimStart a ++ tail := by
    have hne : (a.dropWhile Text.isBlank).isEmpty = false := by simpa [Text.trimStart] using hstart
    rw [Text.trimStart, List.dropWhile_append, hne]
    rfl
  obtain ⟨c, as, has⟩ := List.exists_cons_of_ne_nil hstart
  rw [endsCondition, happend, has, List.cons_append] at hends
  simp only [Bool.or_eq_true, beq_iff_eq, Option.isSome_iff_ne_none] at hends
  rcases hends with rfl | hread
  · have hbalanced := Balanced.trimStart_iff.mpr ((ho.append_iff ha).mp hp)
    exact hbalanced.head?_ne_close (by rw [has]; rfl)
  · refine hread (Tier.read?_append_eq_none (List.cons_ne_nil c as) ?_ ?_)
    · have hletters := htail.letters
      rwa [List.getLast?_append_of_ne_nil _ hnil, ← Text.getLast?_trimStart hstart, has] at hletters
    · rw [← has]
      refine Tier.read?_eq_none_of_findOperator (findOperator_trimStart_eq_none_iff.mpr ?_)
      exact ((findOperator_append_eq_none_iff ho ha).mp hnone).2

/-- A literal that the search takes ends with the balanced text it begins with, if no quote follows
that text. -/
theorem eq_nil_of_quote {x b rest : List Char} (hp : Balanced ('\'' :: x))
    (hhead : (b ++ rest).head? ≠ some '\'')
    (h : ∀ body after, Text.closeLiteral (x ++ (b ++ rest)) = some (body, after) →
      after = rest) : b = [] := by
  obtain ⟨k, hk, -, hq⟩ := hp
  have hopen : Cursor.start.next '\'' = some ⟨some '\'', 0, .inside⟩ := rfl
  rw [Cursor.run, hopen, Option.bind_some] at hk
  obtain ⟨body, after, hclose⟩ := (closeLiteral_of_run hhead hk hq).1 rfl
  have hlength := congrArg List.length (h _ _ hclose)
  simp only [List.length_append] at hlength
  exact List.eq_nil_of_length_eq_zero (by omega)

/-- The search takes no blank after a balanced text: it stops there, or the literal it takes ends
before. -/
theorem eq_nil_of_blank {p b rest tail : List Char} {c : Char} (hc : Text.isBlank c = true)
    (hp : Balanced p) (hne : p ≠ []) (htext : b ++ rest = c :: tail)
    (hsplit : splitOperand (p ++ (b ++ rest)) = (p ++ b, rest)) : b = [] := by
  by_contra hnil
  obtain ⟨d, p', rfl⟩ := List.exists_cons_of_ne_nil hne
  have hhead : (b ++ rest).head? ≠ some '\'' := by
    rw [htext]
    simpa using ne_of_isBlank hc (d := '\'') rfl
  have hmem : c ∈ b := by
    obtain ⟨e, b, rfl⟩ := List.exists_cons_of_ne_nil hnil
    obtain ⟨rfl, -⟩ := List.cons.inj htext
    exact List.mem_cons_self
  obtain ⟨tail', body, heq, hclose, -⟩ | ⟨tail', heq, hclose, -⟩ | ⟨-, hall, -⟩ :=
    splitOperand_cases hsplit
  · rw [List.cons_append] at heq
    obtain ⟨rfl, rfl⟩ := List.cons.inj heq
    refine hnil (eq_nil_of_quote hp hhead fun body' after h => ?_)
    rw [hclose] at h
    cases h
    rfl
  · rw [List.cons_append] at heq
    obtain ⟨rfl, rfl⟩ := List.cons.inj heq
    refine hnil (eq_nil_of_quote hp hhead fun body' after h => ?_)
    rw [hclose] at h
    cases h
  · have hno := List.all_eq_true.mp hall c (List.mem_append_right _ hmem)
    simp [endsOperand, hc] at hno

/-- What follows the operand that the reader takes is not taken by the search. -/
theorem eq_nil_of_follows {p b rest : List Char} (hp : Balanced p) (hne : p ≠ [])
    (htail : Follows p (b ++ rest)) (hsplit : splitOperand (p ++ (b ++ rest)) = (p ++ b, rest))
    (ho : IsSelfContained (String.ofList (p ++ b))) : b = [] := by
  by_contra hnil
  have hb : Apart p b := by
    obtain ⟨c, b, rfl⟩ := List.exists_cons_of_ne_nil hnil
    exact ⟨htail.apart.letters, htail.apart.quotes⟩
  have hbalanced : Balanced b := by
    have h := ho.balanced
    rw [String.toList_ofList, hp.append_iff hb] at h
    exact h
  have hnone : findOperator .logical b = none := by
    have h := findNextOperator_eq_none_iff.mp ho.noOperator .logical
    rw [String.toList_ofList, findOperator_append_eq_none_iff hp hb] at h
    exact h.2
  generalize htext : b ++ rest = text at htail
  cases htail with
  | nil => exact hnil (List.append_eq_nil_iff.mp htext).1
  | close tail =>
    refine hbalanced.head?_ne_close ?_
    rw [← List.head?_append_of_ne_nil b hnil, htext]
    rfl
  | @join connective tail before after =>
    have hletters := (apart_splitOperand hsplit).letters
    rw [List.getLast?_append_of_ne_nil _ hnil] at hletters
    have hread := Tier.read?_append_eq_none hnil hletters
      (Tier.read?_eq_none_of_findOperator hnone)
    have hword : (Operator.join connective).isWord = true := rfl
    rw [htext] at hread
    have htouch : Operator.touchesLetter none tail.head? = false := after
    exact absurd (hread.symm.trans (Operator.read?_word hword htouch)) (by simp)
  | blank hc tail => exact hnil (eq_nil_of_blank hc hp hne htext hsplit)

/-- **Both scanners take the same operand**, if what the search takes is self-contained and nothing
follows it that could belong to it. -/
theorem eq_of_splitOperand {p tail o rest : List Char} (hp : Balanced p)
    (hop : IsOperand (stripWrapping p)) (htrim : Text.trim p = p) (htail : Follows p tail)
    (hsplit : splitOperand (p ++ tail) = (o, rest)) (ho : IsSelfContained (String.ofList o))
    (hends : endsCondition rest = true) : o = p ∧ rest = tail := by
  have hne : p ≠ [] := by
    rintro rfl
    exact hop.1 stripWrapping_nil
  have hone : o ≠ [] := by simpa using ho.ne_empty
  have happend := append_of_splitOperand hsplit
  obtain ⟨a, rfl, rfl⟩ | ⟨b, rfl, rfl⟩ := List.append_eq_append_iff.mp happend
  · have hbalanced : Balanced o := by simpa using ho.balanced
    have hapart : Apart o a := by
      have h := apart_splitOperand hsplit
      cases a with
      | nil => exact ⟨.inr rfl, by simp⟩
      | cons c a => exact ⟨h.letters, h.quotes⟩
    obtain rfl :=
      eq_nil_of_endsCondition hbalanced hone hapart hp hop htrim htail.apart hends
    simp
  · obtain rfl := eq_nil_of_follows hp hne htail hsplit ho
    simp

end Wildcards

end FeatureQuery
