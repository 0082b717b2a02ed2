import FeatureQuery.Proofs.Query.Balance

/-!
# Texts side by side

Two texts are **apart** when no letter of the first touches one of the second, and a quote at the
start of the second opens a literal after the first too. What follows a balanced text, and is apart
from it, is read as if nothing stood before it (`Balanced.exists_fresh`, `Cursor.Fresh`). So a
balanced text may be added or taken away at the start (`Balanced.append_iff`), and the search for an
operator passes over it if it holds none (`findOperator_append`): no operator begins in the one text
and ends in the other (`Tier.read?_append_eq_none`).
-/

namespace FeatureQuery

/-- Two texts of which neither changes what the other means when it is written next to it. -/
structure Apart (cs ds : List Char) : Prop where
  /-- Two words do not become one. -/
  letters : cs.getLast?.any Char.isAlpha = false ∨ ds.head?.any Char.isAlpha = false
  /-- A literal that the second text begins with begins there. -/
  quotes : ds.head? = some '\'' → opensLiteral cs.getLast? = true ∧ cs.getLast? ≠ some '\''

theorem isWordChar_of_isAlpha {c : Char} (h : c.isAlpha = true) : isWordChar c = true := by
  have hascii : c.toNat < 0x80 := by
    rcases Bool.or_eq_true_iff.mp h with hupper | hlower
    · have hle : c.val ≤ 'Z'.val := (of_decide_eq_true hupper).2
      exact Nat.lt_of_le_of_lt (UInt32.le_iff_toNat_le.mp hle) (by decide)
    · have hle : c.val ≤ 'z'.val := of_decide_eq_true (Bool.and_eq_true_iff.mp hlower).2
      exact Nat.lt_of_le_of_lt (UInt32.le_iff_toNat_le.mp hle) (by decide)
  simp [isWordChar, Text.isAlphanumeric_eq_isAlphanum hascii, Char.isAlphanum, h]

/-- After a text that ends with another character than those of words and a quote, anything is
apart. -/
theorem apart_of_getLast? {cs : List Char} (hopens : opensLiteral cs.getLast? = true)
    (hquote : cs.getLast? ≠ some '\'') (ds : List Char) : Apart cs ds := by
  refine ⟨.inl ?_, fun _ => ⟨hopens, hquote⟩⟩
  cases hlast : cs.getLast? with
  | none => rfl
  | some c =>
    rw [Option.any_some, Bool.eq_false_iff]
    intro hletter
    simp [opensLiteral, hlast, isWordChar_of_isAlpha hletter] at hopens

/-- A text that begins with another character than a letter and a quote is apart from any. -/
theorem apart_of_head? (cs : List Char) {ds : List Char}
    (hletter : ds.head?.any Char.isAlpha = false)
    (hquote : ds.head? ≠ some '\'') : Apart cs ds :=
  ⟨.inr hletter, fun h => absurd h hquote⟩

/-- Only the beginning of the second text matters. -/
theorem Apart.append_right {cs ds : List Char} (h : Apart cs ds) (hne : ds ≠ [])
    (es : List Char) : Apart cs (ds ++ es) := by
  obtain ⟨d, ds, rfl⟩ := List.exists_cons_of_ne_nil hne
  exact ⟨h.letters, h.quotes⟩

/-- Only the end of the first text matters. -/
theorem Apart.append_left {cs ds : List Char} (h : Apart cs ds) (hne : cs ≠ [])
    (bs : List Char) : Apart (bs ++ cs) ds := by
  have hlast : (bs ++ cs).getLast? = cs.getLast? := by
    rw [List.getLast?_append, List.getLast?_eq_some_getLast hne, Option.some_or]
  exact ⟨hlast ▸ h.letters, hlast ▸ h.quotes⟩

/-! ### Where a cursor stands after a text -/

namespace Cursor

variable {k k' : Cursor} {c : Char} {cs ds : List Char}

/-- A step records the character, and how it stands with regard to literals. -/
theorem eq_of_next (h : k.next c = some k') :
    ∃ depth, k' = ⟨some c, depth, k.quoting.next k.previous c⟩ := by
  unfold Cursor.next at h
  cases hq : k.quoting.next k.previous c with
  | outside =>
    simp only [hq] at h
    split at h
    · exact ⟨_, (Option.some.inj h).symm⟩
    · split at h
      · split at h
        · simp at h
        · exact ⟨_, (Option.some.inj h).symm⟩
      · exact ⟨_, (Option.some.inj h).symm⟩
  | inside => exact ⟨_, by simpa [hq] using h.symm⟩
  | ended => exact ⟨_, by simpa [hq] using h.symm⟩

/-- Behind a text stands its last character. -/
theorem previous_of_run (h : k.run cs = some k') : k'.previous = cs.getLast?.or k.previous := by
  induction cs generalizing k with
  | nil =>
    cases h
    rfl
  | cons c cs ih =>
    obtain ⟨k₁, hk₁, hrun⟩ := Option.bind_eq_some_iff.mp h
    obtain ⟨depth, rfl⟩ := eq_of_next hk₁
    rw [ih hrun, List.getLast?_cons]
    cases cs.getLast? <;> rfl

/-- A literal ends at a quote. -/
theorem previous_eq_quote_of_ended (hk : k.quoting = .ended → k.previous = some '\'')
    (h : k.run cs = some k') (hended : k'.quoting = .ended) : k'.previous = some '\'' := by
  induction cs generalizing k with
  | nil =>
    cases h
    exact hk hended
  | cons c cs ih =>
    obtain ⟨k₁, hk₁, hrun⟩ := Option.bind_eq_some_iff.mp h
    obtain ⟨depth, rfl⟩ := eq_of_next hk₁
    refine ih (fun hq => ?_) hrun
    by_cases hc : c = '\''
    · rw [hc]
    · cases hkq : k.quoting <;> simp [Quoting.next, hkq, hc] at hq

/-- The text that follows is read as from the start. -/
structure Fresh (k : Cursor) (ds : List Char) : Prop where
  depth : k.depth = 0
  quoting : k.quoting ≠ .inside
  letters : k.previous.any Char.isAlpha = false ∨ ds.head?.any Char.isAlpha = false
  quotes : ds.head? = some '\'' → opensLiteral k.previous = true ∧ k.quoting = .outside

namespace Fresh

/-- The next character has the meaning it has at the start. -/
theorem quoting_next (h : k.Fresh (c :: cs)) :
    k.quoting.next k.previous c = Quoting.outside.next none c := by
  by_cases hc : c = '\''
  · obtain ⟨hopens, hout⟩ := h.quotes (by rw [hc]; rfl)
    have hstart : opensLiteral k.previous = opensLiteral none := hopens
    rw [hout, Quoting.next_congr hstart]
  · rw [Quoting.next_eq_outside h.quoting hc, Quoting.next_eq_outside (by simp) hc]

theorem next_eq (h : k.Fresh (c :: cs)) : k.next c = start.next c := by
  unfold Cursor.next
  rw [h.quoting_next, h.depth]
  rfl

theorem run_eq (h : k.Fresh ds) (hne : ds ≠ []) : k.run ds = start.run ds := by
  cases ds with
  | nil => exact absurd rfl hne
  | cons d ds => rw [Cursor.run, Cursor.run, h.next_eq]

end Fresh

end Cursor

/-- **After a balanced text** a text that is apart from it is read as from the start. -/
theorem Balanced.exists_fresh {cs ds : List Char} (hc : Balanced cs) (h : Apart cs ds) :
    ∃ k, Cursor.start.run cs = some k ∧ k.Fresh ds := by
  obtain ⟨k, hk, hd, hq⟩ := hc
  have hprevious : k.previous = cs.getLast? := by
    rw [Cursor.previous_of_run hk]
    exact Option.or_none
  refine ⟨k, hk, hd, hq, hprevious ▸ h.letters, fun hquote => ?_⟩
  obtain ⟨hopens, hlast⟩ := h.quotes hquote
  refine ⟨hprevious ▸ hopens, ?_⟩
  cases hkq : k.quoting with
  | outside => rfl
  | inside => exact absurd hkq hq
  | ended =>
    have hended := Cursor.previous_eq_quote_of_ended (by simp [Cursor.start]) hk hkq
    exact absurd (hprevious ▸ hended) hlast

theorem balanced_nil : Balanced [] := ⟨.start, rfl, rfl, by simp [Cursor.start]⟩

/-- **A balanced text** at the start of another neither mends nor breaks what is apart from it. -/
theorem Balanced.append_iff {cs ds : List Char} (hc : Balanced cs) (h : Apart cs ds) :
    Balanced (cs ++ ds) ↔ Balanced ds := by
  obtain ⟨k, hk, hfresh⟩ := hc.exists_fresh h
  by_cases hne : ds = []
  · rw [hne, List.append_nil]
    exact iff_of_true hc balanced_nil
  · rw [Balanced, Balanced, Cursor.run_append, hk, Option.bind_some, hfresh.run_eq hne]

/-! ### Operators in texts side by side -/

/-- The split of a text with a piece put before it. -/
def Split.prepend (cs : List Char) (s : Split) : Split := { s with before := cs ++ s.before }

@[simp] theorem Split.map_prepend_nil (s : Option Split) : s.map (Split.prepend []) = s := by
  cases s <;> rfl

/-- The tier of an operator. -/
def Operator.tier : Operator → Tier
  | .join _ => .logical
  | .not => .unaryText
  | .like => .unaryText
  | .compare _ => .comparison

theorem Tier.mem_operators_iff {tier : Tier} {op : Operator} :
    op ∈ tier.operators ↔ op.tier = tier := by
  cases tier <;> rcases op with (_ | _) | _ | _ | (_ | _ | _ | _ | _ | _) <;> decide

theorem Operator.tier_eq_comparison_iff {op : Operator} :
    op.tier = .comparison ↔ op.isWord = false := by
  cases op <;> simp [Operator.tier, Operator.isWord]

theorem Operator.text_ne_nil (op : Operator) : op.text.toList ≠ [] := by
  rcases op with (_ | _) | _ | _ | (_ | _ | _ | _ | _ | _) <;> decide

theorem Operator.not_isBlank (op : Operator) : ∀ c ∈ op.text.toList, Text.isBlank c = false := by
  have hall : op.text.toList.all (fun c => !Text.isBlank c) = true := by
    rcases op with (_ | _) | _ | _ | (_ | _ | _ | _ | _ | _) <;> decide
  simpa using hall

theorem Operator.quote_notMem_text (op : Operator) : '\'' ∉ op.text.toList := by
  rcases op with (_ | _) | _ | _ | (_ | _ | _ | _ | _ | _) <;> decide

/-- A comparison has no letters, and a quote after it opens a literal. -/
theorem Operator.signs_of_not_isWord {op : Operator} (h : op.isWord = false) :
    op.text.toList.head?.any Char.isAlpha = false ∧
      opensLiteral op.text.toList.getLast? = true := by
  rcases op with _ | _ | _ | (_ | _ | _ | _ | _ | _)
  case join | not | like => simp [Operator.isWord] at h
  all_goals decide

/-- An operator that is a word consists of letters. -/
theorem Operator.isAlpha_of_isWord {op : Operator} (h : op.isWord = true) :
    ∀ c ∈ op.text.toList, c.isAlpha = true := by
  have hall : op.text.toList.all Char.isAlpha = true := by
    rcases op with (_ | _) | _ | _ | _
    case compare => simp [Operator.isWord] at h
    all_goals decide
  exact List.all_eq_true.mp hall

/-- A comparison begins with a sign that is a comparison by itself. -/
theorem Operator.exists_sign {op : Operator} (h : op.isWord = false) :
    ∃ c tail, op.text.toList = c :: tail ∧
      ∃ sign : Operator, sign.isWord = false ∧ sign.text.toList = [c] := by
  rcases op with _ | _ | _ | (_ | _ | _ | _ | _ | _)
  case join | not | like => simp [Operator.isWord] at h
  case eq => exact ⟨'=', _, rfl, .compare .eq, rfl, rfl⟩
  case ne | lt | le => exact ⟨'<', _, rfl, .compare .lt, rfl, rfl⟩
  case gt | ge => exact ⟨'>', _, rfl, .compare .gt, rfl, rfl⟩

/-- What is read is an operator of the tier; if it is a word, no letter touches it. -/
theorem Tier.eq_of_read? {tier : Tier} {previous : Option Char} {cs rest : List Char}
    {op : Operator} (h : tier.read? previous cs = some (op, rest)) :
    op.tier = tier ∧ cs = op.text.toList ++ rest ∧
      (op.isWord = true → Operator.touchesLetter previous rest.head? = false) := by
  simp only [Tier.read?, Option.bind_eq_bind, Option.bind_eq_some_iff] at h
  obtain ⟨⟨op', rest'⟩, hfind, h⟩ := h
  obtain ⟨candidate, hmem, hstrip⟩ := List.exists_of_findSome?_eq_some hfind
  obtain ⟨r, hr, heq⟩ := Option.map_eq_some_iff.mp hstrip
  cases heq
  simp only [Option.ite_none_left_eq_some, Option.some.injEq, Prod.mk.injEq] at h
  obtain ⟨ht, rfl, rfl⟩ := h
  exact ⟨Tier.mem_operators_iff.mp hmem, Operator.eq_append_of_strip? hr, by simpa using ht⟩

/-- **A word is read** where no letter touches it. -/
theorem Operator.read?_word {op : Operator} (hword : op.isWord = true) {previous : Option Char}
    {rest : List Char} (h : Operator.touchesLetter previous rest.head? = false) :
    op.tier.read? previous (op.text.toList ++ rest) = some (op, rest) := by
  rcases op with (_ | _) | _ | _ | _
  case compare => simp [Operator.isWord] at hword
  all_goals
    simp [Operator.tier, Tier.read?, Tier.operators, Operator.strip?, Operator.text,
      Connective.text, Text.after?, h]

/-- **Some comparison is read** wherever a text begins with one. -/
theorem Operator.read?_comparison_ne_none {op : Operator} (hword : op.isWord = false)
    (previous : Option Char) (rest : List Char) :
    Tier.comparison.read? previous (op.text.toList ++ rest) ≠ none := by
  have htier := Operator.tier_eq_comparison_iff.mpr hword
  have hstrip : op.strip? (op.text.toList ++ rest) = some rest := Text.after?_eq_some_iff.mpr rfl
  rw [Tier.read?]
  cases hfind : Tier.comparison.operators.findSome? fun op' =>
      (op'.strip? (op.text.toList ++ rest)).map fun r => (op', r) with
  | none =>
    simpa [hstrip] using List.findSome?_eq_none_iff.mp hfind op (Tier.mem_operators_iff.mpr htier)
  | some found =>
    obtain ⟨op', r⟩ := found
    obtain ⟨candidate, hmem, hmap⟩ := List.exists_of_findSome?_eq_some hfind
    obtain ⟨_, _, heq⟩ := Option.map_eq_some_iff.mp hmap
    cases heq
    have hword' := Operator.tier_eq_comparison_iff.mp (Tier.mem_operators_iff.mp hmem)
    simp [hword']

/-- A word stays untouched when more text follows, if no letters touch there. -/
theorem Operator.letters_append {op : Operator} (hword : op.isWord = true) {rest ds : List Char}
    (hletters : (op.text.toList ++ rest).getLast?.any Char.isAlpha = false ∨
      ds.head?.any Char.isAlpha = false)
    (hrest : rest.head?.any Char.isAlpha = false) :
    (rest ++ ds).head?.any Char.isAlpha = false := by
  cases rest with
  | cons c rest => exact hrest
  | nil =>
    -- the text ends with the word, so it ends with a letter
    have hlast := Operator.isAlpha_of_isWord hword _ (List.getLast_mem op.text_ne_nil)
    rw [List.append_nil, List.getLast?_eq_some_getLast op.text_ne_nil] at hletters
    simpa [hlast] using hletters

/-- **A word that begins in the first of two texts ends in it**, if no letters touch between them or
after the word. -/
theorem Operator.exists_of_append_eq {op : Operator} (hword : op.isWord = true)
    {cs ds rest : List Char} (hne : cs ≠ [])
    (hletters : cs.getLast?.any Char.isAlpha = false ∨ ds.head?.any Char.isAlpha = false)
    (heq : cs ++ ds = op.text.toList ++ rest) (hrest : rest.head?.any Char.isAlpha = false) :
    ∃ r, cs = op.text.toList ++ r ∧ r.head?.any Char.isAlpha = false := by
  have halpha := Operator.isAlpha_of_isWord hword
  obtain ⟨a, htext, hds⟩ | ⟨r, hcs, rfl⟩ := List.append_eq_append_iff.mp heq
  · cases a with
    | nil => exact ⟨[], by simpa using htext.symm, rfl⟩
    | cons a as =>
      -- a word that goes on in the second text has letters on both sides
      have hlast : (cs.getLast hne).isAlpha = true :=
        halpha _ (htext ▸ List.mem_append_left _ (List.getLast_mem hne))
      have hhead : a.isAlpha = true := halpha a (by simp [htext])
      rw [List.getLast?_eq_some_getLast hne, hds] at hletters
      simp [hlast, hhead] at hletters
  · refine ⟨r, hcs, ?_⟩
    cases r with
    | nil => rfl
    | cons c r => exact hrest

/-- An operator is still read when more text follows, if no letters touch. -/
theorem Tier.read?_eq_none_of_append {tier : Tier} {previous : Option Char} {cs ds : List Char}
    (hletters : cs.getLast?.any Char.isAlpha = false ∨ ds.head?.any Char.isAlpha = false)
    (hnone : tier.read? previous (cs ++ ds) = none) : tier.read? previous cs = none := by
  rw [Option.eq_none_iff_forall_ne_some]
  rintro ⟨op, rest⟩ hread
  obtain ⟨rfl, rfl, htouch⟩ := Tier.eq_of_read? hread
  rw [List.append_assoc] at hnone
  cases hword : op.isWord with
  | false =>
    rw [Operator.tier_eq_comparison_iff.mpr hword] at hnone
    exact Operator.read?_comparison_ne_none hword previous _ hnone
  | true =>
    have htouch := htouch hword
    simp only [Operator.touchesLetter, Bool.or_eq_false_iff] at htouch
    have hnext := Operator.letters_append hword hletters htouch.2
    have hread := Operator.read?_word hword (by rw [Operator.touchesLetter, htouch.1, hnext]; rfl)
    simp [hnone] at hread

/-- **No operator begins in the one text and ends in the other** if no letters touch. -/
theorem Tier.read?_append_eq_none {tier : Tier} {previous : Option Char} {cs ds : List Char}
    (hne : cs ≠ [])
    (hletters : cs.getLast?.any Char.isAlpha = false ∨ ds.head?.any Char.isAlpha = false)
    (hnone : tier.read? previous cs = none) : tier.read? previous (cs ++ ds) = none := by
  rw [Option.eq_none_iff_forall_ne_some]
  rintro ⟨op, rest⟩ hread
  obtain ⟨rfl, heq, htouch⟩ := Tier.eq_of_read? hread
  cases hword : op.isWord with
  | false =>
    -- the first sign of a comparison is read whatever follows
    obtain ⟨c, tail, htext, sign, hsign, hc⟩ := Operator.exists_sign hword
    obtain ⟨d, cs, rfl⟩ := List.exists_cons_of_ne_nil hne
    rw [htext] at heq
    obtain rfl : d = c := (List.cons.inj heq).1
    rw [Operator.tier_eq_comparison_iff.mpr hword] at hnone
    exact Operator.read?_comparison_ne_none hsign previous cs (by rw [hc]; exact hnone)
  | true =>
    have htouch := htouch hword
    simp only [Operator.touchesLetter, Bool.or_eq_false_iff] at htouch
    obtain ⟨r, rfl, hr⟩ := Operator.exists_of_append_eq hword hne hletters heq htouch.2
    have hread := Operator.read?_word hword (by rw [Operator.touchesLetter, htouch.1, hr]; rfl)
    simp [hnone] at hread

/-- The character before a text matters to an operator at its start only if letters touch. -/
theorem Tier.read?_congr {p p' : Option Char} {cs : List Char}
    (h : p.any Char.isAlpha = p'.any Char.isAlpha ∨ cs.head?.any Char.isAlpha = false)
    (tier : Tier) : tier.read? p cs = tier.read? p' cs := by
  rw [Tier.read?, Tier.read?]
  cases hfind : tier.operators.findSome? fun op => (op.strip? cs).map fun rest => (op, rest) with
  | none => rfl
  | some found =>
    obtain ⟨op, rest⟩ := found
    simp only [Option.bind_eq_bind, Option.bind_some]
    cases hword : op.isWord with
    | false => rfl
    | true =>
      obtain ⟨candidate, _, hstrip⟩ := List.exists_of_findSome?_eq_some hfind
      obtain ⟨_, hrest, heq⟩ := Option.map_eq_some_iff.mp hstrip
      cases heq
      have hp : p.any Char.isAlpha = p'.any Char.isAlpha := by
        refine h.resolve_right fun hhead => ?_
        obtain ⟨c, word, htext⟩ := List.exists_cons_of_ne_nil op.text_ne_nil
        have hletter := Operator.isAlpha_of_isWord hword c (by simp [htext])
        simp [Operator.eq_append_of_strip? hrest, htext, hletter] at hhead
      simp [Operator.touchesLetter, hp]

/-! ### Blanks -/

/-- The code points of all blanks. -/
private def blankCodes : List Nat :=
  [0x9, 0xA, 0xB, 0xC, 0xD, 0x20, 0x85, 0xA0, 0x1680, 0x2000, 0x2001, 0x2002, 0x2003, 0x2004,
    0x2005, 0x2006, 0x2007, 0x2008, 0x2009, 0x200A, 0x2028, 0x2029, 0x202F, 0x205F, 0x3000]

/-- No blank is a character of a word. -/
theorem isWordChar_of_isBlank {c : Char} (h : Text.isBlank c = true) : isWordChar c = false := by
  have hmem : c.toNat ∈ blankCodes := by
    simp only [Text.isBlank, Bool.or_eq_true, Bool.and_eq_true, decide_eq_true_eq,
      beq_iff_eq] at h
    simp only [blankCodes, List.mem_cons, List.not_mem_nil, or_false]
    omega
  have hall : ∀ n ∈ blankCodes, isWordChar (Char.ofNat n) = false := by decide +kernel
  rw [← Char.ofNat_toNat c]
  exact hall _ hmem

section Blank

variable {c : Char} (hb : Text.isBlank c = true)
include hb

theorem ne_of_isBlank {d : Char} (hd : Text.isBlank d = false) : c ≠ d := by
  rintro rfl
  simp [hb] at hd

theorem isAlpha_of_isBlank : c.isAlpha = false := by
  rw [Bool.eq_false_iff]
  intro halpha
  simpa [isWordChar_of_isBlank hb] using isWordChar_of_isAlpha halpha

theorem apart_cons_blank (cs ds : List Char) : Apart cs (c :: ds) :=
  apart_of_head? cs (by simpa using isAlpha_of_isBlank hb)
    (by simpa using ne_of_isBlank hb (d := '\'') rfl)

theorem apart_concat_blank (cs ds : List Char) : Apart (cs ++ [c]) ds := by
  refine apart_of_getLast? ?_ ?_ ds
  · simp [opensLiteral, isWordChar_of_isBlank hb]
  · simpa using ne_of_isBlank hb (d := '\'') rfl

/-- A blank is read as a blank. -/
theorem Cursor.next_isBlank {k : Cursor} (hq : k.quoting ≠ .inside) :
    k.next c = some ⟨some c, k.depth, .outside⟩ := by
  have hopen := ne_of_isBlank hb (d := '(') rfl
  have hclose := ne_of_isBlank hb (d := ')') rfl
  simp [Cursor.next, Quoting.next_eq_outside hq (ne_of_isBlank hb (d := '\'') rfl), hopen, hclose]

theorem balanced_blank : Balanced [c] := by
  refine ⟨⟨some c, 0, .outside⟩, ?_, rfl, by simp⟩
  rw [Cursor.run, Cursor.next_isBlank hb (by simp [Cursor.start])]
  rfl

theorem Balanced.cons_blank_iff {cs : List Char} : Balanced (c :: cs) ↔ Balanced cs :=
  (balanced_blank hb).append_iff (apart_concat_blank hb [] cs)

theorem Balanced.concat_blank_iff {cs : List Char} : Balanced (cs ++ [c]) ↔ Balanced cs := by
  refine ⟨?_, fun h => (h.append_iff (apart_cons_blank hb cs [])).mpr (balanced_blank hb)⟩
  rintro ⟨k, hk, hd, hq⟩
  rw [Cursor.run_append] at hk
  obtain ⟨k', hk', hlast⟩ := Option.bind_eq_some_iff.mp hk
  have hnext : k'.next c = some k := by simpa [Cursor.run] using hlast
  have hq' : k'.quoting ≠ .inside := by
    intro hinside
    obtain ⟨depth, rfl⟩ := Cursor.eq_of_next hnext
    simp [hinside, Quoting.next, ne_of_isBlank hb (d := '\'') rfl] at hq
  rw [Cursor.next_isBlank hb hq', Option.some.injEq] at hnext
  refine ⟨k', hk', ?_, hq'⟩
  rw [← hnext] at hd
  exact hd

end Blank

/-! ### Passing over a text without operators -/

/-- A text without an operator does not begin with one. -/
theorem operatorAt?_eq_none {tier : Tier} {k : Cursor} {cs : List Char}
    (h : findOperatorFrom tier k cs = none) : operatorAt? tier k cs = none := by
  cases cs with
  | nil => rfl
  | cons c cs =>
    cases hat : operatorAt? tier k (c :: cs) with
    | none => rfl
    | some found => simp [findOperatorFrom, hat] at h

/-- What touches no letters at the end of a text touches none at the end of its tail. -/
theorem letters_tail {c : Char} {cs ds : List Char}
    (h : (c :: cs).getLast?.any Char.isAlpha = false ∨ ds.head?.any Char.isAlpha = false) :
    cs.getLast?.any Char.isAlpha = false ∨ ds.head?.any Char.isAlpha = false := by
  cases cs with
  | nil => exact .inl rfl
  | cons d cs => simpa using h

/-- An operator at the cursor is still there when more text follows. -/
theorem operatorAt?_eq_none_of_append {tier : Tier} {k : Cursor} {cs ds : List Char}
    (hletters : cs.getLast?.any Char.isAlpha = false ∨ ds.head?.any Char.isAlpha = false)
    (hnone : operatorAt? tier k (cs ++ ds) = none) : operatorAt? tier k cs = none := by
  cases cs with
  | nil => rfl
  | cons c cs =>
    rw [List.cons_append, operatorAt?] at hnone
    rw [operatorAt?]
    split
    · rename_i hplain
      rw [if_pos hplain] at hnone
      exact Tier.read?_eq_none_of_append hletters hnone
    · rfl

/-- An operator is still found when more text follows. -/
theorem findOperatorFrom_eq_none_of_append {tier : Tier} {k : Cursor} {cs ds : List Char}
    (hletters : cs.getLast?.any Char.isAlpha = false ∨ ds.head?.any Char.isAlpha = false)
    (hnone : findOperatorFrom tier k (cs ++ ds) = none) : findOperatorFrom tier k cs = none := by
  induction cs generalizing k with
  | nil => rfl
  | cons c cs ih =>
    have hat' := operatorAt?_eq_none hnone
    have hat := operatorAt?_eq_none_of_append hletters hat'
    rw [List.cons_append] at hat' hnone
    rw [findOperatorFrom, hat'] at hnone
    rw [findOperatorFrom, hat]
    cases hk : k.next c with
    | none => rfl
    | some k₁ =>
      simp only [hk, Option.bind_some, Option.map_eq_none_iff] at hnone ⊢
      exact ih (letters_tail hletters) hnone

/-- What stands before the operator that is found holds none of its tier. -/
theorem findOperatorFrom_before {tier : Tier} {k : Cursor} {cs : List Char} {s : Split}
    (h : findOperatorFrom tier k cs = some s)
    (hletters : s.before.getLast?.any Char.isAlpha = false ∨
      s.operator.text.toList.head?.any Char.isAlpha = false) :
    findOperatorFrom tier k s.before = none := by
  induction cs generalizing k s with
  | nil => simp [findOperatorFrom] at h
  | cons c cs ih =>
    have hwhole := eq_append_of_findOperatorFrom h
    rw [findOperatorFrom] at h
    split at h
    · cases h
      rfl
    · rename_i hat
      obtain ⟨k₁, hk₁, h⟩ := Option.bind_eq_some_iff.mp h
      obtain ⟨s, hs, rfl⟩ := Option.map_eq_some_iff.mp h
      rw [← hwhole, Split.whole, List.append_assoc] at hat
      have hat := operatorAt?_eq_none_of_append (hletters.imp id fun hhead => ?_) hat
      · simp [findOperatorFrom, hat, hk₁, ih hs (letters_tail hletters)]
      · obtain ⟨d, tail, htext⟩ := List.exists_cons_of_ne_nil s.operator.text_ne_nil
        rw [htext] at hhead ⊢
        exact hhead

/-- A text without an operator is passed over. -/
theorem findOperatorFrom_append {tier : Tier} {k k' : Cursor} {cs ds : List Char}
    (hk : k.run cs = some k') (hnone : findOperatorFrom tier k cs = none)
    (hletters : cs.getLast?.any Char.isAlpha = false ∨ ds.head?.any Char.isAlpha = false) :
    findOperatorFrom tier k (cs ++ ds) =
      (findOperatorFrom tier k' ds).map (Split.prepend cs) := by
  induction cs generalizing k with
  | nil =>
    cases hk
    simp
  | cons c cs ih =>
    obtain ⟨k₁, hk₁, hrun⟩ := Option.bind_eq_some_iff.mp hk
    have hat := operatorAt?_eq_none hnone
    have hrest : findOperatorFrom tier k₁ cs = none := by
      simpa [findOperatorFrom, hat, hk₁] using hnone
    have hat' : operatorAt? tier k (c :: (cs ++ ds)) = none := by
      rw [operatorAt?] at hat ⊢
      split
      · rename_i hplain
        rw [if_pos hplain] at hat
        exact Tier.read?_append_eq_none (List.cons_ne_nil c cs) hletters hat
      · rfl
    rw [List.cons_append, findOperatorFrom, hat', hk₁]
    simp only [Option.bind_some, ih hrun hrest (letters_tail hletters), Option.map_map]
    rfl

/-- Where a text is read as from the start, it is searched as from the start. -/
theorem Cursor.Fresh.findOperatorFrom_eq {k : Cursor} {ds : List Char} (h : k.Fresh ds)
    (tier : Tier) : findOperatorFrom tier k ds = findOperator tier ds := by
  cases ds with
  | nil => rfl
  | cons d ds =>
    have hplain : k.isPlain d = Cursor.start.isPlain d := by
      rw [Cursor.isPlain, Cursor.isPlain, h.quoting_next, h.depth]
      rfl
    have hread : tier.read? k.previous (d :: ds) = tier.read? none (d :: ds) :=
      Tier.read?_congr h.letters tier
    have hat : operatorAt? tier k (d :: ds) = operatorAt? tier .start (d :: ds) := by
      rw [operatorAt?, operatorAt?, hplain, hread]
      rfl
    rw [findOperator, findOperatorFrom, findOperatorFrom, hat, h.next_eq]

/-- **Passing over a balanced text** that holds no operator of the tier. -/
theorem findOperator_append {tier : Tier} {cs ds : List Char} (hc : Balanced cs)
    (hnone : findOperator tier cs = none) (h : Apart cs ds) :
    findOperator tier (cs ++ ds) = (findOperator tier ds).map (Split.prepend cs) := by
  obtain ⟨k, hk, hfresh⟩ := hc.exists_fresh h
  rw [findOperator, findOperatorFrom_append hk hnone h.letters, hfresh.findOperatorFrom_eq]

/-- **Texts side by side hold no operator** if and only if neither does. -/
theorem findOperator_append_eq_none_iff {tier : Tier} {cs ds : List Char} (hc : Balanced cs)
    (h : Apart cs ds) :
    findOperator tier (cs ++ ds) = none ↔
      findOperator tier cs = none ∧ findOperator tier ds = none := by
  constructor
  · intro hnone
    have hcs : findOperator tier cs = none := findOperatorFrom_eq_none_of_append h.letters hnone
    rw [findOperator_append hc hcs h, Option.map_eq_none_iff] at hnone
    exact ⟨hcs, hnone⟩
  · rintro ⟨hcs, hds⟩
    rw [findOperator_append hc hcs h, hds, Option.map_none]

theorem findNextOperator_eq_none_iff {cs : List Char} :
    findNextOperator cs = none ↔ ∀ tier, findOperator tier cs = none := by
  simp only [findNextOperator, List.findSome?_eq_none_iff]
  exact ⟨fun h tier => h tier (by cases tier <;> simp [Tier.all]), fun h tier _ => h tier⟩

/-! ### Operators beside blanks -/

/-- A blank holds no operator. -/
theorem findOperator_blank {c : Char} (hb : Text.isBlank c = true) (tier : Tier) :
    findOperator tier [c] = none := by
  have hread : tier.read? none [c] = none := by
    rw [Option.eq_none_iff_forall_ne_some]
    rintro ⟨op, rest⟩ hread
    obtain ⟨d, tail, htext⟩ := List.exists_cons_of_ne_nil op.text_ne_nil
    have hd := op.not_isBlank d (by simp [htext])
    have hcd : c = d := by simpa [htext] using congrArg List.head? (Tier.eq_of_read? hread).2.1
    exact ne_of_isBlank hb hd hcd
  simp [findOperator, findOperatorFrom, operatorAt?, Cursor.start, hread]

theorem findOperator_cons_blank_eq_none_iff {c : Char} (hb : Text.isBlank c = true) {tier : Tier}
    {cs : List Char} : findOperator tier (c :: cs) = none ↔ findOperator tier cs = none := by
  rw [← List.singleton_append,
    findOperator_append_eq_none_iff (balanced_blank hb) (apart_concat_blank hb [] cs)]
  simp [findOperator_blank hb]

theorem findOperator_concat_blank_eq_none_iff {c : Char} (hb : Text.isBlank c = true) {tier : Tier}
    {cs : List Char} (hc : Balanced cs) :
    findOperator tier (cs ++ [c]) = none ↔ findOperator tier cs = none := by
  rw [findOperator_append_eq_none_iff hc (apart_cons_blank hb cs [])]
  simp [findOperator_blank hb]

end FeatureQuery
