import FeatureQuery.Proofs.Query.Splitting

/-!
# Texts that take the place of others

A piece of a query may be replaced by another text if that text is balanced, brings no operator of a
tier with it of which there was none, and shows the same at its ends: whether there stands a letter,
and whether there stands a quote. Then a word between the pieces splits the text where it did before
(`Operator.Splits.replace`), and the whole text may be replaced in turn
(`Operator.Splits.replaces`).
-/

namespace FeatureQuery

/-- What a character at the end of a text means to the text beside it. -/
def edge (c : Char) : Bool × Bool := (c.isAlpha, c == '\'')

theorem first_append (cs ds : List Char) :
    (cs ++ ds).head?.map edge = (cs.head?.map edge).or (ds.head?.map edge) := by
  rw [List.head?_append, Option.map_or]

theorem last_append (cs ds : List Char) :
    (cs ++ ds).getLast?.map edge = (ds.getLast?.map edge).or (cs.getLast?.map edge) := by
  rw [List.getLast?_append, Option.map_or]

/-- Texts that look the same from outside both end with a letter, or neither does. -/
theorem isAlpha_of_edge {c d : Option Char} (h : d.map edge = c.map edge) :
    d.any Char.isAlpha = c.any Char.isAlpha := by
  simpa [Option.any_map, edge, Function.comp_def] using congrArg (Option.any Prod.fst) h

/-- Texts that look the same from outside both end with a quote, or neither does. -/
theorem eq_quote_of_edge {c d : Option Char} (h : d.map edge = c.map edge) (hd : d = some '\'') :
    c = some '\'' := by
  rw [hd] at h
  obtain ⟨c', hc, hedge⟩ := Option.map_eq_some_iff.mp h.symm
  have hc' : c' = '\'' := by simpa [edge] using congrArg Prod.snd hedge
  rw [hc, hc']

/-- The second text can take the place of the first in a query: it is balanced, holds no operator of
a tier of which the first holds none, and looks the same from outside. -/
structure Replaces (cs ds : List Char) : Prop where
  balanced : Balanced ds
  noOperator : ∀ tier, findOperator tier cs = none → findOperator tier ds = none
  first : ds.head?.map edge = cs.head?.map edge
  last : ds.getLast?.map edge = cs.getLast?.map edge

namespace Replaces

variable {cs cs' ds ds' : List Char}

theorem refl (h : Balanced cs) : Replaces cs cs := ⟨h, fun _ => id, rfl, rfl⟩

theorem first_letter (h : Replaces cs ds) :
    ds.head?.any Char.isAlpha = cs.head?.any Char.isAlpha :=
  isAlpha_of_edge h.first

theorem last_letter (h : Replaces cs ds) :
    ds.getLast?.any Char.isAlpha = cs.getLast?.any Char.isAlpha :=
  isAlpha_of_edge h.last

theorem first_quote (h : Replaces cs ds) (hquote : ds.head? = some '\'') :
    cs.head? = some '\'' :=
  eq_quote_of_edge h.first hquote

theorem cons_blank {c : Char} (hc : Text.isBlank c = true) (h : Replaces cs ds) :
    Replaces (c :: cs) (c :: ds) where
  balanced := (Balanced.cons_blank_iff hc).mpr h.balanced
  noOperator tier := by
    simpa [findOperator_cons_blank_eq_none_iff hc] using h.noOperator tier
  first := rfl
  last := by rw [← List.singleton_append, last_append, h.last, ← last_append, List.singleton_append]

theorem concat_blank {c : Char} (hc : Text.isBlank c = true) (hcs : Balanced cs)
    (h : Replaces cs ds) : Replaces (cs ++ [c]) (ds ++ [c]) where
  balanced := (Balanced.concat_blank_iff hc).mpr h.balanced
  noOperator tier := by
    rw [findOperator_concat_blank_eq_none_iff hc hcs,
      findOperator_concat_blank_eq_none_iff hc h.balanced]
    exact h.noOperator tier
  first := by rw [first_append, first_append, h.first]
  last := by rw [last_append, last_append, h.last]

theorem group (h : Replaces cs ds) : Replaces ('(' :: cs ++ [')']) ('(' :: ds ++ [')']) where
  balanced := h.balanced.group
  noOperator _ _ := findOperator_group h.balanced
  first := rfl
  last := by rw [List.getLast?_concat, List.getLast?_concat]

end Replaces

/-- What an operator between two pieces, and the pieces, hold no operator of. -/
theorem Operator.Splits.findOperator_eq_none_iff {op : Operator} {cs ds : List Char}
    (h : op.Splits cs ds) {tier : Tier} :
    findOperator tier (cs ++ (op.text.toList ++ ds)) = none ↔
      findOperator tier cs = none ∧ findOperator tier op.text.toList = none ∧
        findOperator tier ds = none := by
  rw [findOperator_append_eq_none_iff h.balanced_before h.apart,
    findOperator_append_eq_none_iff op.balanced_text h.apart_after]

/-- No letter touches a word between two pieces. -/
theorem Operator.Splits.letters {op : Operator} {cs ds : List Char} (h : op.Splits cs ds)
    (hword : op.isWord = true) :
    cs.getLast?.any Char.isAlpha = false ∧ ds.head?.any Char.isAlpha = false := by
  obtain ⟨c, tail, htext⟩ := List.exists_cons_of_ne_nil op.text_ne_nil
  have hletter := Operator.isAlpha_of_isWord hword c (by simp [htext])
  constructor
  · simpa [htext, hletter] using h.apart_before.letters
  · exact Operator.goesOnWith_word hword ▸ h.ends

/-- **Between replaced pieces** a word still splits the text. -/
theorem Operator.Splits.replace {op : Operator} {cs cs' ds ds' : List Char} (h : op.Splits cs ds)
    (hword : op.isWord = true) (hc : Replaces cs cs') (hd : Replaces ds ds') :
    op.Splits cs' ds' where
  balanced_before := hc.balanced
  balanced_after := hd.balanced
  before tier hle := hc.noOperator tier (h.before tier hle)
  after tier hlt := hd.noOperator tier (h.after tier hlt)
  apart_before := ⟨hc.last_letter ▸ h.apart_before.letters, fun hquote =>
    absurd (List.mem_of_head? hquote) op.quote_notMem_text⟩
  apart_after := ⟨hd.first_letter ▸ h.apart_after.letters, fun hquote =>
    h.apart_after.quotes (hd.first_quote hquote)⟩
  ends := by
    rw [Operator.goesOnWith_word hword, hd.first_letter]
    exact (h.letters hword).2

theorem Operator.Splits.replaces {op : Operator} {cs cs' ds ds' : List Char} (h : op.Splits cs ds)
    (hword : op.isWord = true) (hc : Replaces cs cs') (hd : Replaces ds ds') :
    Replaces (cs ++ (op.text.toList ++ ds)) (cs' ++ (op.text.toList ++ ds')) where
  balanced := (h.replace hword hc hd).balanced
  noOperator tier := by
    rw [h.findOperator_eq_none_iff, (h.replace hword hc hd).findOperator_eq_none_iff]
    exact fun ⟨hcs, hop, hds⟩ => ⟨hc.noOperator tier hcs, hop, hd.noOperator tier hds⟩
  first := by simp only [first_append, hc.first, hd.first]
  last := by simp only [last_append, hc.last, hd.last]

end FeatureQuery
