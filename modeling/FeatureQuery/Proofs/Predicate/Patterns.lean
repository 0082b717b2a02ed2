import FeatureQuery.Predicate.Basic
import FeatureQuery.Proofs.Query.Quoting
import Mathlib.Data.List.Forall2

/-!
# What a pattern matches

A text matches a list of items if it can be cut into pieces, one for each item and using up the
whole text, so that every piece is one that its item stands for (`LikePattern.Cuts`). There may be
many ways to cut a text, and the matcher has to find one if there is one. It keeps the verdicts on
all end pieces of the text at once: the verdicts on a text begin with the one on the whole text, and
go on with those on the text without its first character (`verdicts_cons`). So the matcher can be
compared with the cuts item by item and character by character.

Main statement: every text is a pattern, it has one reading as a list of items, and it matches the
texts that can be cut for these items (`isMatch_iff_cuts`).
-/

namespace FeatureQuery

/-- What a piece must be to stand for an item: any run of characters, any one character, or the
character itself. -/
def LikeItem.Takes : LikeItem → List Char → Prop
  | .anyRun, _ => True
  | .anyChar, piece => ∃ c, piece = [c]
  | .char c, piece => piece = [c]

namespace LikePattern

/-! ### Readings of a pattern -/

/-- The items that a pattern is read as, from left to right. A point directly followed by a star is
an item together with it. -/
inductive Spells : List Char → List LikeItem → Prop where
  /-- An empty pattern has no items. -/
  | nil : Spells [] []
  /-- A point and a star stand for any run of characters. -/
  | anyRun {cs : List Char} {items : List LikeItem} (rest : Spells cs items) :
      Spells ('.' :: '*' :: cs) (.anyRun :: items)
  /-- A point without a star after it stands for any one character. -/
  | anyChar {cs : List Char} {items : List LikeItem} (alone : cs.head? ≠ some '*')
      (rest : Spells cs items) : Spells ('.' :: cs) (.anyChar :: items)
  /-- Every other character stands for itself. -/
  | char {c : Char} {cs : List Char} {items : List LikeItem} (ne : c ≠ '.')
      (rest : Spells cs items) : Spells (c :: cs) (.char c :: items)

/-- Every text is read in some way. -/
theorem spells_readItems (cs : List Char) : Spells cs (readItems cs) := by
  fun_induction readItems cs with
  | case1 => exact .nil
  | case2 cs ih => exact .anyRun ih
  | case3 c cs hstar ih =>
    split
    · subst c
      refine .anyChar ?_ ih
      intro hhead
      obtain ⟨rest, rfl⟩ := List.head?_eq_some_iff.mp hhead
      exact hstar rest rfl rfl
    · exact .char ‹_› ih

/-- **A pattern has one reading.** -/
theorem Spells.eq_readItems {cs : List Char} {items : List LikeItem} (h : Spells cs items) :
    items = readItems cs := by
  induction h with
  | nil => rfl
  | anyRun rest ih => rw [readItems, ih]
  | @anyChar cs items alone rest ih =>
    rw [readItems, ih]
    · rfl
    · rintro cs' - rfl
      exact alone rfl
  | @char c cs items ne rest ih =>
    rw [readItems, if_neg ne, ih]
    rintro cs' rfl -
    exact ne rfl

/-! ### Cuts of a text -/

/-- The text can be cut into pieces, one for each item. -/
def Cuts (items : List LikeItem) (text : List Char) : Prop :=
  ∃ pieces, List.Forall₂ LikeItem.Takes items pieces ∧ pieces.flatten = text

theorem cuts_nil_iff {text : List Char} : Cuts [] text ↔ text = [] := by
  constructor
  · rintro ⟨_, ⟨⟩, rfl⟩
    rfl
  · rintro rfl
    exact ⟨[], .nil, rfl⟩

theorem cuts_cons_iff {item : LikeItem} {items : List LikeItem} {text : List Char} :
    Cuts (item :: items) text ↔
      ∃ piece rest, item.Takes piece ∧ Cuts items rest ∧ piece ++ rest = text := by
  constructor
  · rintro ⟨_, ⟨⟩, rfl⟩
    exact ⟨_, _, ‹_›, ⟨_, ‹_›, rfl⟩, rfl⟩
  · rintro ⟨piece, rest, hpiece, ⟨pieces, hpieces, rfl⟩, rfl⟩
    exact ⟨piece :: pieces, .cons hpiece hpieces, rfl⟩

/-- A run is empty, or it begins with a character and goes on as a run. -/
theorem cuts_anyRun_iff {items : List LikeItem} {text : List Char} :
    Cuts (.anyRun :: items) text ↔
      Cuts items text ∨ ∃ c rest, text = c :: rest ∧ Cuts (.anyRun :: items) rest := by
  simp only [cuts_cons_iff, LikeItem.Takes, true_and]
  constructor
  · rintro ⟨piece, rest, hrest, rfl⟩
    cases piece with
    | nil => exact .inl hrest
    | cons c piece => exact .inr ⟨c, piece ++ rest, rfl, piece, rest, hrest, rfl⟩
  · rintro (hrest | ⟨c, _, rfl, piece, rest, hrest, rfl⟩)
    · exact ⟨[], text, hrest, rfl⟩
    · exact ⟨c :: piece, rest, hrest, rfl⟩

theorem cuts_anyChar_iff {items : List LikeItem} {text : List Char} :
    Cuts (.anyChar :: items) text ↔ ∃ c rest, text = c :: rest ∧ Cuts items rest := by
  rw [cuts_cons_iff]
  constructor
  · rintro ⟨_, rest, ⟨c, rfl⟩, hrest, rfl⟩
    exact ⟨c, rest, rfl, hrest⟩
  · rintro ⟨c, rest, rfl, hrest⟩
    exact ⟨[c], rest, ⟨c, rfl⟩, hrest, rfl⟩

theorem cuts_char_iff {c : Char} {items : List LikeItem} {text : List Char} :
    Cuts (.char c :: items) text ↔ ∃ rest, text = c :: rest ∧ Cuts items rest := by
  rw [cuts_cons_iff]
  constructor
  · rintro ⟨_, rest, rfl, hrest, rfl⟩
    exact ⟨rest, rfl, hrest⟩
  · rintro ⟨rest, rfl, hrest⟩
    exact ⟨[c], rest, rfl, hrest, rfl⟩

/-! ### The verdicts on the end pieces -/

/-- The verdict on the whole text. -/
def verdict (text : List Char) (items : List LikeItem) : Bool := (verdicts text items).headD false

/-- The empty text is its only end piece. -/
theorem exists_verdicts_nil (items : List LikeItem) : ∃ b, verdicts [] items = [b] := by
  induction items with
  | nil => exact ⟨true, rfl⟩
  | cons item items ih =>
    obtain ⟨b, hb⟩ := ih
    cases item <;> simp [verdicts, step, hb]

theorem verdicts_ne_nil (text : List Char) (items : List LikeItem) : verdicts text items ≠ [] := by
  induction items with
  | nil => simp [verdicts]
  | cons item items ih =>
    obtain ⟨b, row, hrow⟩ := List.exists_cons_of_ne_nil ih
    cases item <;> simp [verdicts, step, hrow]

/-- **The verdicts on a text** are the one on the whole text and those on what follows its first
character. -/
theorem exists_verdicts_cons (c : Char) (text : List Char) (items : List LikeItem) :
    ∃ b, verdicts (c :: text) items = b :: verdicts text items := by
  induction items with
  | nil => exact ⟨false, rfl⟩
  | cons item items ih =>
    obtain ⟨b, hb⟩ := ih
    obtain ⟨v, row, hrow⟩ := List.exists_cons_of_ne_nil (verdicts_ne_nil text items)
    cases item <;> simp [verdicts, step, hb, hrow]

theorem verdict_anyRun_nil (items : List LikeItem) :
    verdict [] (.anyRun :: items) = verdict [] items := by
  obtain ⟨b, hb⟩ := exists_verdicts_nil items
  simp [verdict, verdicts, step, hb]

theorem verdict_anyRun_cons (c : Char) (text : List Char) (items : List LikeItem) :
    verdict (c :: text) (.anyRun :: items) =
      (verdict (c :: text) items || verdict text (.anyRun :: items)) := by
  obtain ⟨b, hb⟩ := exists_verdicts_cons c text items
  simp [verdict, verdicts, step, hb]

theorem verdict_anyChar_nil (items : List LikeItem) : verdict [] (.anyChar :: items) = false := by
  obtain ⟨b, hb⟩ := exists_verdicts_nil items
  simp [verdict, verdicts, step, hb]

theorem verdict_anyChar_cons (c : Char) (text : List Char) (items : List LikeItem) :
    verdict (c :: text) (.anyChar :: items) = verdict text items := by
  obtain ⟨b, hb⟩ := exists_verdicts_cons c text items
  obtain ⟨v, row, hrow⟩ := List.exists_cons_of_ne_nil (verdicts_ne_nil text items)
  simp [verdict, verdicts, step, hb, hrow]

theorem verdict_char_cons (c d : Char) (text : List Char) (items : List LikeItem) :
    verdict (d :: text) (.char c :: items) = (d == c && verdict text items) := by
  obtain ⟨b, hb⟩ := exists_verdicts_cons d text items
  obtain ⟨v, row, hrow⟩ := List.exists_cons_of_ne_nil (verdicts_ne_nil text items)
  simp [verdict, verdicts, step, hb, hrow]

/-- **The verdict on a text** tells whether it can be cut. The induction is on the items, and for a
run of characters on the text too. -/
theorem verdict_iff {items : List LikeItem} {text : List Char} :
    verdict text items = true ↔ Cuts items text := by
  induction items generalizing text with
  | nil => cases text <;> simp [verdict, verdicts, cuts_nil_iff]
  | cons item items ih =>
    cases item with
    | anyRun =>
      induction text with
      | nil =>
        rw [cuts_anyRun_iff, verdict_anyRun_nil, ih]
        simp
      | cons c text hrun =>
        rw [cuts_anyRun_iff, verdict_anyRun_cons, Bool.or_eq_true, ih, hrun]
        simp
    | anyChar =>
      rw [cuts_anyChar_iff]
      cases text with
      | nil => simp [verdict_anyChar_nil]
      | cons c text => simp [verdict_anyChar_cons, ih]
    | char c =>
      rw [cuts_char_iff]
      cases text with
      | nil => simp [verdict, verdicts, step]
      | cons d text => simp [verdict_char_cons, ih]

/-- **A pattern matches the texts that can be cut for its items.** Every text is a pattern, so that
a condition with it compiles if its field is known, and it is read in one way only. -/
theorem isMatch_iff_cuts (pattern text : String) :
    (∀ (schema : Schema) (field : String), compile schema (.like field (quoted pattern)) =
      (schema.field field).map fun name => .like name (ofString pattern)) ∧
    ∃ items, (∀ other, Spells pattern.toList other ↔ other = items) ∧
      ((ofString pattern).isMatch text = true ↔ Cuts items text.toList) := by
  refine ⟨fun schema field => ?_, readItems pattern.toList, fun other => ?_, verdict_iff⟩
  · rw [compile, toList_quoted, Text.unquote_quote, String.ofList_toList]
    cases schema.field field <;> rfl
  · exact ⟨Spells.eq_readItems, fun h => h ▸ spells_readItems _⟩

end LikePattern

end FeatureQuery
