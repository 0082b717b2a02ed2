import FeatureQuery.Proofs.Query.Splitting
import Mathlib.Data.List.Basic

/-!
# Blanks and parentheses around a text

`stripWrapping` takes blanks and enclosing parentheses away together. Its result depends on the
trimmed text alone (`stripWrapping_congr`); parentheses around a balanced text are taken away
whatever stands in them (`stripWrapping_group`); and only blanks are taken away from a text with an
operator between two pieces (`Operator.Splits.stripWrapping_eq`), because a parenthesis at its start
closes too early.
-/

namespace FeatureQuery

/-! ### Blanks at the ends -/

namespace Text

theorem trim_cons_blank {c : Char} (hc : isBlank c = true) (cs : List Char) :
    trim (c :: cs) = trim cs := by
  rw [trim, trim, trimStart, trimStart, List.dropWhile_cons, if_pos hc]

theorem trimEnd_concat_blank {c : Char} (hc : isBlank c = true) (cs : List Char) :
    trimEnd (cs ++ [c]) = trimEnd cs := by
  rw [trimEnd, trimEnd, List.reverse_append, List.reverse_singleton, List.singleton_append,
    List.dropWhile_cons, if_pos hc]

theorem trim_concat_blank {c : Char} (hc : isBlank c = true) (cs : List Char) :
    trim (cs ++ [c]) = trim cs := by
  rw [trim, trim, trimStart, trimStart, List.dropWhile_append]
  split
  · rename_i hall
    simp [List.isEmpty_iff.mp hall, hc, trimEnd]
  · exact trimEnd_concat_blank hc _

/-- A text that begins and ends with other characters than blanks has none to lose. -/
theorem trim_eq_self {cs : List Char} (hhead : cs.head?.any isBlank = false)
    (hlast : cs.getLast?.any isBlank = false) : trim cs = cs := by
  have hstart : trimStart cs = cs := by
    cases cs with
    | nil => rfl
    | cons c cs => simp_all [trimStart]
  have hend : cs.reverse.dropWhile isBlank = cs.reverse := by
    rw [← List.head?_reverse] at hlast
    cases hr : cs.reverse with
    | nil => rfl
    | cons c rs => simp_all
  rw [trim, hstart, trimEnd, hend, List.reverse_reverse]

theorem trim_eq_self_iff {cs : List Char} :
    trim cs = cs ↔ cs.head?.any isBlank = false ∧ cs.getLast?.any isBlank = false := by
  refine ⟨fun h => ?_, fun h => trim_eq_self h.1 h.2⟩
  have hlen : (trimStart cs).length = cs.length := by
    have h1 := length_trimEnd_le (trimStart cs)
    have h2 := length_trimStart_le cs
    have h3 : (trimEnd (trimStart cs)).length = cs.length := congrArg List.length h
    omega
  have hstart : trimStart cs = cs := (List.dropWhile_sublist _).eq_of_length hlen
  rw [trim, hstart] at h
  exact ⟨hstart ▸ isBlank_head?_trimStart cs, h ▸ isBlank_getLast?_trimEnd cs⟩

theorem trimStart_append (cs : List Char) {ds : List Char} (h : ds.head?.any isBlank = false) :
    trimStart (cs ++ ds) = trimStart cs ++ ds := by
  induction cs with
  | nil => cases ds <;> simp_all [trimStart]
  | cons c cs ih =>
    by_cases hc : isBlank c = true
    · simpa [trimStart, hc] using ih
    · simp [trimStart, hc]

theorem trimEnd_append {cs : List Char} (h : cs.getLast?.any isBlank = false) (ds : List Char) :
    trimEnd (cs ++ ds) = cs ++ trimEnd ds := by
  have hstart : ∀ es, trimEnd es = (trimStart es.reverse).reverse := fun _ => rfl
  rw [hstart, hstart, List.reverse_append, trimStart_append _ (by simpa using h)]
  simp

/-- Blanks at the ends do not change what does not depend on a single one. -/
theorem trimStart_iff {P : List Char → Prop}
    (h : ∀ {c : Char}, isBlank c = true → ∀ cs, P (c :: cs) ↔ P cs) (cs : List Char) :
    P (trimStart cs) ↔ P cs := by
  induction cs with
  | nil => rfl
  | cons c cs ih =>
    by_cases hc : isBlank c = true
    · rw [h hc, ← ih, trimStart, trimStart, List.dropWhile_cons, if_pos hc]
    · rw [trimStart, List.dropWhile_cons, if_neg hc]

theorem trimEnd_iff {P : List Char → Prop}
    (h : ∀ {c : Char}, isBlank c = true → ∀ cs, P (cs ++ [c]) ↔ P cs) (cs : List Char) :
    P (trimEnd cs) ↔ P cs := by
  have hrev := trimStart_iff (P := fun ds => P ds.reverse)
    (fun hc ds => by rw [List.reverse_cons]; exact h hc ds.reverse) cs.reverse
  rwa [List.reverse_reverse] at hrev

/-- What blanks at the ends cannot take away holds of a text if it holds of the trimmed text. -/
theorem of_trimStart {P : List Char → Prop}
    (h : ∀ {c : Char}, isBlank c = true → ∀ {cs}, P cs → P (c :: cs)) {cs : List Char}
    (hp : P (trimStart cs)) : P cs := by
  induction cs with
  | nil => exact hp
  | cons c cs ih =>
    by_cases hc : isBlank c = true
    · rw [trimStart, List.dropWhile_cons, if_pos hc] at hp
      exact h hc (ih hp)
    · rwa [trimStart, List.dropWhile_cons, if_neg hc] at hp

theorem of_trimEnd {P : List Char → Prop}
    (h : ∀ {c : Char}, isBlank c = true → ∀ {cs}, P cs → P (cs ++ [c])) {cs : List Char}
    (hp : P (trimEnd cs)) : P cs := by
  have hrev : P cs.reverse.reverse := of_trimStart (P := fun ds => P ds.reverse)
    (fun hc ds hds => by rw [List.reverse_cons]; exact h hc hds) hp
  rwa [List.reverse_reverse] at hrev

/-- What is left of a text still ends as the text does, or nothing is left. -/
theorem getLast?_trimStart {cs : List Char} (h : trimStart cs ≠ []) :
    (trimStart cs).getLast? = cs.getLast? := by
  conv_rhs => rw [← takeWhile_append_trimStart cs]
  exact (List.getLast?_append_of_ne_nil _ h).symm

theorem head?_trimEnd {cs : List Char} (h : trimEnd cs ≠ []) :
    (trimEnd cs).head? = cs.head? := by
  have hlast : trimStart cs.reverse ≠ [] := by simpa [trimEnd, trimStart] using h
  simpa [trimEnd, trimStart] using getLast?_trimStart hlast

theorem trim_trim (cs : List Char) : trim (trim cs) = trim cs := by
  refine trim_eq_self ?_ (isBlank_getLast?_trimEnd _)
  by_cases hnil : trim cs = []
  · rw [hnil]
    rfl
  · rw [trim] at hnil ⊢
    rw [head?_trimEnd hnil]
    exact isBlank_head?_trimStart cs

end Text

/-! ### Enclosing parentheses -/

/-- The whole of a text is one group, with the given text in it. -/
def IsGroup (cs inside : List Char) : Prop :=
  ∃ rest, cs = '(' :: rest ∧ closeGroup Cursor.inGroup rest = some (inside, [])

theorem IsGroup.eq {cs inside : List Char} (h : IsGroup cs inside) :
    cs = '(' :: inside ++ [')'] := by
  obtain ⟨rest, rfl, hclose⟩ := h
  rw [eq_append_of_closeGroup hclose, List.cons_append]

theorem IsGroup.length_lt {cs inside : List Char} (h : IsGroup cs inside) :
    inside.length < cs.length := by
  rw [h.eq, List.length_append, List.length_cons]
  omega

theorem Balanced.isGroup {cs : List Char} (h : Balanced cs) : IsGroup ('(' :: cs ++ [')']) cs :=
  ⟨cs ++ [')'], rfl, h.closeGroup_eq []⟩

/-- **One layer** of parentheses is taken away. -/
theorem stripWrapping_of_isGroup {cs inside : List Char} (h : IsGroup (Text.trim cs) inside) :
    stripWrapping cs = stripWrapping inside := by
  obtain ⟨rest, htrim, hclose⟩ := h
  rw [stripWrapping]
  split
  · rename_i rest' htrim'
    obtain rfl : rest = rest' := List.tail_eq_of_cons_eq (htrim.symm.trans htrim')
    split
    · rename_i inside' hclose'
      rw [hclose] at hclose'
      cases hclose'
      rfl
    · rename_i hne
      exact absurd hclose (hne inside)
  · rename_i hne
    exact absurd htrim (hne rest)

/-- **Without parentheses** around the whole text only blanks are taken away. -/
theorem stripWrapping_of_not_isGroup {cs : List Char}
    (h : ∀ inside, ¬ IsGroup (Text.trim cs) inside) : stripWrapping cs = Text.trim cs := by
  rw [stripWrapping]
  split
  · rename_i rest htrim
    split
    · rename_i inside hclose
      exact absurd ⟨rest, htrim, hclose⟩ (h inside)
    · exact htrim.symm
  · rfl

/-- What is left depends on the trimmed text alone. -/
theorem stripWrapping_congr {cs ds : List Char} (h : Text.trim cs = Text.trim ds) :
    stripWrapping cs = stripWrapping ds := by
  by_cases hg : ∃ inside, IsGroup (Text.trim cs) inside
  · obtain ⟨inside, hg⟩ := hg
    have hg' : IsGroup (Text.trim ds) inside := h ▸ hg
    rw [stripWrapping_of_isGroup hg, stripWrapping_of_isGroup hg']
  · have hc : ∀ inside, ¬ IsGroup (Text.trim cs) inside := not_exists.mp hg
    rw [stripWrapping_of_not_isGroup hc, stripWrapping_of_not_isGroup (h ▸ hc), h]

theorem stripWrapping_cons_blank {c : Char} (hc : Text.isBlank c = true) (cs : List Char) :
    stripWrapping (c :: cs) = stripWrapping cs :=
  stripWrapping_congr (Text.trim_cons_blank hc cs)

theorem stripWrapping_concat_blank {c : Char} (hc : Text.isBlank c = true) (cs : List Char) :
    stripWrapping (cs ++ [c]) = stripWrapping cs :=
  stripWrapping_congr (Text.trim_concat_blank hc cs)

theorem stripWrapping_trimStart (cs : List Char) :
    stripWrapping (Text.trimStart cs) = stripWrapping cs :=
  (Text.trimStart_iff (P := fun ds => stripWrapping ds = stripWrapping cs)
    (fun hc ds => by rw [stripWrapping_cons_blank hc ds]) cs).mpr rfl

theorem stripWrapping_trimEnd (cs : List Char) :
    stripWrapping (Text.trimEnd cs) = stripWrapping cs :=
  (Text.trimEnd_iff (P := fun ds => stripWrapping ds = stripWrapping cs)
    (fun hc ds => by rw [stripWrapping_concat_blank hc ds]) cs).mpr rfl

/-- **Parentheses around a balanced text** are taken away. -/
theorem stripWrapping_group {cs : List Char} (h : Balanced cs) :
    stripWrapping ('(' :: cs ++ [')']) = stripWrapping cs := by
  have htrim : Text.trim ('(' :: cs ++ [')']) = '(' :: cs ++ [')'] :=
    Text.trim_eq_self (by rfl) (by rw [List.getLast?_concat]; rfl)
  exact stripWrapping_of_isGroup (htrim.symm ▸ h.isGroup)

/-- What is left is no longer than the text. -/
theorem length_stripWrapping_le (cs : List Char) : (stripWrapping cs).length ≤ cs.length := by
  induction hn : cs.length using Nat.strongRecOn generalizing cs with
  | ind n ih =>
    subst hn
    have htrim := Text.length_trim_le cs
    by_cases hg : ∃ inside, IsGroup (Text.trim cs) inside
    · obtain ⟨inside, hg⟩ := hg
      have hlt := hg.length_lt
      have hle := ih inside.length (by omega) inside rfl
      rw [stripWrapping_of_isGroup hg]
      omega
    · rwa [stripWrapping_of_not_isGroup (not_exists.mp hg)]

/-- Nothing is taken away from a text exactly when it has no blanks at its ends and is not one
group. -/
theorem stripWrapping_eq_self_iff {cs : List Char} :
    stripWrapping cs = cs ↔ Text.trim cs = cs ∧ ∀ inside, ¬ IsGroup cs inside := by
  constructor
  · intro h
    have htrim := Text.length_trim_le cs
    have hg : ∀ inside, ¬ IsGroup (Text.trim cs) inside := by
      intro inside hg
      have hlt := hg.length_lt
      have hle := length_stripWrapping_le inside
      rw [← stripWrapping_of_isGroup hg, h] at hle
      omega
    have heq : Text.trim cs = cs := (stripWrapping_of_not_isGroup hg).symm.trans h
    exact ⟨heq, heq ▸ hg⟩
  · rintro ⟨htrim, hg⟩
    rw [stripWrapping_of_not_isGroup (htrim.symm ▸ hg), htrim]

theorem stripWrapping_nil : stripWrapping [] = [] :=
  List.eq_nil_of_length_eq_zero (Nat.le_zero.mp (length_stripWrapping_le []))

/-- A text that goes on after a balanced piece at its start is not one group. -/
theorem Balanced.not_isGroup_append {cs : List Char} (hc : Balanced cs) (hne : cs ≠ [])
    {ds : List Char} (hd : ds ≠ []) (inside : List Char) : ¬ IsGroup (cs ++ ds) inside := by
  rintro ⟨rest, heq, hclose⟩
  cases cs with
  | nil => exact hne rfl
  | cons c cs =>
    obtain ⟨rfl, rfl⟩ : c = '(' ∧ cs ++ ds = rest := by simpa using heq
    obtain ⟨i, a, hia⟩ := hc.exists_closeGroup
    rw [closeGroup_append_of_some hia] at hclose
    simp [hd] at hclose

/-- Taking away once is taking away everything. -/
theorem stripWrapping_stripWrapping (cs : List Char) :
    stripWrapping (stripWrapping cs) = stripWrapping cs := by
  induction hn : cs.length using Nat.strongRecOn generalizing cs with
  | ind n ih =>
    subst hn
    have htrim := Text.length_trim_le cs
    by_cases hg : ∃ inside, IsGroup (Text.trim cs) inside
    · obtain ⟨inside, hg⟩ := hg
      have hlt := hg.length_lt
      rw [stripWrapping_of_isGroup hg]
      exact ih inside.length (by omega) inside rfl
    · have hng := not_exists.mp hg
      rw [stripWrapping_of_not_isGroup hng]
      exact stripWrapping_eq_self_iff.mpr ⟨Text.trim_trim cs, hng⟩

/-! ### Balanced pieces -/

/-- The text of a group is balanced. -/
theorem IsGroup.balanced {cs inside : List Char} (h : IsGroup cs inside) : Balanced inside := by
  obtain ⟨rest, rfl, hclose⟩ := h
  exact balanced_of_closeGroup hclose

theorem Balanced.trimStart_iff {cs : List Char} : Balanced (Text.trimStart cs) ↔ Balanced cs :=
  Text.trimStart_iff (fun hc _ => Balanced.cons_blank_iff hc) cs

theorem Balanced.trimEnd_iff {cs : List Char} : Balanced (Text.trimEnd cs) ↔ Balanced cs :=
  Text.trimEnd_iff (fun hc _ => Balanced.concat_blank_iff hc) cs

/-- **What is left of a balanced text** is balanced. -/
theorem Balanced.stripWrapping {cs : List Char} (h : Balanced cs) :
    Balanced (stripWrapping cs) := by
  induction hn : cs.length using Nat.strongRecOn generalizing cs with
  | ind n ih =>
    subst hn
    have htrim := Text.length_trim_le cs
    by_cases hg : ∃ inside, IsGroup (Text.trim cs) inside
    · obtain ⟨inside, hg⟩ := hg
      have hlt := hg.length_lt
      rw [stripWrapping_of_isGroup hg]
      exact ih inside.length (by omega) hg.balanced rfl
    · rw [stripWrapping_of_not_isGroup (not_exists.mp hg)]
      exact Balanced.trimEnd_iff.mpr (Balanced.trimStart_iff.mpr h)

/-- **From the inside out**: what holds of what is left holds of the whole text, if neither a blank
at an end nor parentheses around a balanced text can take it away. -/
theorem of_stripWrapping {P : List Char → Prop}
    (hcons : ∀ {c : Char}, Text.isBlank c = true → ∀ {cs}, P cs → P (c :: cs))
    (hconcat : ∀ {c : Char}, Text.isBlank c = true → ∀ {cs}, P cs → P (cs ++ [c]))
    (hgroup : ∀ {cs}, Balanced cs → P cs → P ('(' :: cs ++ [')'])) {cs : List Char}
    (h : P (stripWrapping cs)) : P cs := by
  induction hn : cs.length using Nat.strongRecOn generalizing cs with
  | ind n ih =>
    subst hn
    have htrim := Text.length_trim_le cs
    refine Text.of_trimStart hcons (Text.of_trimEnd hconcat ?_)
    by_cases hg : ∃ inside, IsGroup (Text.trim cs) inside
    · obtain ⟨inside, hg⟩ := hg
      have hlt := hg.length_lt
      rw [stripWrapping_of_isGroup hg] at h
      have hin := hgroup hg.balanced (ih inside.length (by omega) h rfl)
      rw [← hg.eq] at hin
      exact hin
    · rwa [stripWrapping_of_not_isGroup (not_exists.mp hg)] at h

/-! ### Texts around an operator -/

theorem Apart.trimStart {cs ds : List Char} (h : Apart cs ds) : Apart (Text.trimStart cs) ds := by
  by_cases hnil : Text.trimStart cs = []
  · rw [hnil]
    exact ⟨.inl rfl, fun _ => ⟨rfl, by simp⟩⟩
  · have hlast := Text.getLast?_trimStart hnil
    exact ⟨hlast ▸ h.letters, hlast ▸ h.quotes⟩

theorem Apart.trimEnd {cs ds : List Char} (h : Apart cs ds) : Apart cs (Text.trimEnd ds) := by
  by_cases hnil : Text.trimEnd ds = []
  · rw [hnil]
    exact ⟨.inr rfl, by simp⟩
  · have hhead := Text.head?_trimEnd hnil
    exact ⟨hhead ▸ h.letters, hhead ▸ h.quotes⟩

theorem findOperator_trimStart_eq_none_iff {tier : Tier} {cs : List Char} :
    findOperator tier (Text.trimStart cs) = none ↔ findOperator tier cs = none :=
  Text.trimStart_iff (P := fun cs => findOperator tier cs = none)
    (fun hc _ => findOperator_cons_blank_eq_none_iff hc) cs

theorem findOperator_trimEnd_eq_none_iff {tier : Tier} {cs : List Char} (hc : Balanced cs) :
    findOperator tier (Text.trimEnd cs) = none ↔ findOperator tier cs = none := by
  have h := Text.trimEnd_iff (P := fun cs => Balanced cs ∧ findOperator tier cs = none)
    (fun hb cs => ?_) cs
  · simpa [hc, Balanced.trimEnd_iff] using h
  · rw [Balanced.concat_blank_iff hb]
    exact and_congr_right fun hc => findOperator_concat_blank_eq_none_iff hb hc

/-- What is wrapped around a text without an operator holds none. -/
theorem findOperator_of_stripWrapping {tier : Tier} {cs : List Char} (hc : Balanced cs)
    (h : findOperator tier (stripWrapping cs) = none) : findOperator tier cs = none := by
  refine of_stripWrapping (P := fun cs => Balanced cs → findOperator tier cs = none)
    (fun hb _ ih hc => ?_) (fun hb _ ih hc => ?_) (fun hin _ _ => findOperator_group hin)
    (fun _ => h) hc
  · exact (findOperator_cons_blank_eq_none_iff hb).mpr (ih ((Balanced.cons_blank_iff hb).mp hc))
  · have hc := (Balanced.concat_blank_iff hb).mp hc
    exact (findOperator_concat_blank_eq_none_iff hb hc).mpr (ih hc)

namespace Operator.Splits

variable {op : Operator} {cs ds : List Char}

/-- Without the blanks at its ends the text splits at the same place. -/
theorem trim (h : op.Splits cs ds) : op.Splits (Text.trimStart cs) (Text.trimEnd ds) where
  balanced_before := Balanced.trimStart_iff.mpr h.balanced_before
  balanced_after := Balanced.trimEnd_iff.mpr h.balanced_after
  before tier hle := findOperator_trimStart_eq_none_iff.mpr (h.before tier hle)
  after tier hlt := (findOperator_trimEnd_eq_none_iff h.balanced_after).mpr (h.after tier hlt)
  apart_before := h.apart_before.trimStart
  apart_after := h.apart_after.trimEnd
  ends := by
    by_cases hnil : Text.trimEnd ds = []
    · rw [hnil]
      rfl
    · rw [Text.head?_trimEnd hnil]
      exact h.ends

/-- **Only blanks** are taken away around an operator between two pieces. -/
theorem stripWrapping_eq (h : op.Splits cs ds) :
    stripWrapping (cs ++ (op.text.toList ++ ds)) =
      Text.trimStart cs ++ (op.text.toList ++ Text.trimEnd ds) := by
  have hhead : (op.text.toList ++ ds).head?.any Text.isBlank = false := by
    obtain ⟨c, tail, htext⟩ := List.exists_cons_of_ne_nil op.text_ne_nil
    simpa [htext] using op.not_isBlank c (by simp [htext])
  have hlast : (Text.trimStart cs ++ op.text.toList).getLast?.any Text.isBlank = false := by
    rw [List.getLast?_append_of_ne_nil _ op.text_ne_nil,
      List.getLast?_eq_some_getLast op.text_ne_nil]
    exact op.not_isBlank _ (List.getLast_mem op.text_ne_nil)
  have htrim : Text.trim (cs ++ (op.text.toList ++ ds)) =
      Text.trimStart cs ++ (op.text.toList ++ Text.trimEnd ds) := by
    rw [Text.trim, Text.trimStart_append cs hhead, ← List.append_assoc, Text.trimEnd_append hlast,
      List.append_assoc]
  rw [← htrim]
  refine stripWrapping_of_not_isGroup fun inside hg => ?_
  rw [htrim] at hg
  by_cases hnil : Text.trimStart cs = []
  · -- no operator begins with a parenthesis
    obtain ⟨rest, heq, -⟩ := hg
    rw [hnil] at heq
    rcases op with (_ | _) | _ | _ | (_ | _ | _ | _ | _ | _) <;>
      simp [text, Connective.text, Comparison.text] at heq
  · exact (Balanced.trimStart_iff.mpr h.balanced_before).not_isGroup_append hnil
      (by simp [op.text_ne_nil]) inside hg

end Operator.Splits

end FeatureQuery
