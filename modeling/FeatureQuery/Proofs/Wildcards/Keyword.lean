import FeatureQuery.Proofs.Query.Wrapping
import FeatureQuery.Query.Wildcards

/-!
# The search for `like`

The search for `like` goes through a text from left to right and knows nothing of groups. It
**passes over** a text at the start of another if it finds in the whole what it finds in the rest.
It passes over every sign that is neither a quote nor a character of a word (`passesOver_sign`), and
over every balanced text without a `like` of its own that is apart from the rest
(`passesOver_of_balanced`). What it passes over is left as it is (`PassesOver.mapOperands_eq`). What
follows the keyword it finds may be another text, if that begins with no letter
(`splitKeyword?_replace`).
-/

namespace FeatureQuery.Wildcards

/-! ### Where the keyword stands -/

theorem like_isWord : Operator.like.isWord = true := rfl

/-- The keyword is read where no letter touches it. -/
theorem read?_like_iff {previous : Option Char} {cs rest : List Char} :
    Tier.unaryText.read? previous cs = some (.like, rest) ↔
      cs = Operator.like.text.toList ++ rest ∧
        Operator.touchesLetter previous rest.head? = false := by
  constructor
  · intro h
    obtain ⟨-, heq, htouch⟩ := Tier.eq_of_read? h
    exact ⟨heq, htouch rfl⟩
  · rintro ⟨rfl, htouch⟩
    exact Operator.read?_word like_isWord htouch

/-- What the keyword leaves when it stands at the start of a text, outside all literals. -/
def keyword? (previous : Option Char) (quoting : Quoting) : List Char → Option (List Char)
  | [] => none
  | c :: cs =>
    if quoting.next previous c = .outside then
      match Tier.unaryText.read? previous (c :: cs) with
      | some (.like, rest) => some rest
      | _ => none
    else none

theorem keyword?_eq_some_iff {previous : Option Char} {quoting : Quoting} {cs rest : List Char} :
    keyword? previous quoting cs = some rest ↔ quoting ≠ .inside ∧
      cs = Operator.like.text.toList ++ rest ∧
        Operator.touchesLetter previous rest.head? = false := by
  cases cs with
  | nil => simp [keyword?, Operator.text]
  | cons c cs =>
    have hread : (match Tier.unaryText.read? previous (c :: cs) with
        | some (.like, rest) => some rest
        | _ => none) = some rest ↔
        Tier.unaryText.read? previous (c :: cs) = some (.like, rest) := by
      split <;> simp_all
    rw [keyword?, Option.ite_none_right_eq_some, hread, read?_like_iff]
    refine and_congr_left fun h => ?_
    obtain ⟨rfl, -⟩ : c = 'l' ∧ cs = ['i', 'k', 'e'] ++ rest := by
      simpa [Operator.text] using h.1
    cases quoting <;> simp [Quoting.next]

theorem splitKeyword?_cons (previous : Option Char) (quoting : Quoting) (c : Char)
    (cs : List Char) :
    splitKeyword? previous quoting (c :: cs) =
      match keyword? previous quoting (c :: cs) with
      | some rest => some (Operator.like.text.toList, rest)
      | none => (splitKeyword? (some c) (quoting.next previous c) cs).map
          fun (before, rest) => (c :: before, rest) := by
  rw [splitKeyword?, keyword?]
  by_cases hout : quoting.next previous c = .outside
  · simp only [hout, if_true]
    split <;> simp_all
  · simp only [if_neg hout]

theorem splitKeyword?_of_keyword? {previous : Option Char} {quoting : Quoting}
    {cs rest : List Char} (h : keyword? previous quoting cs = some rest) :
    splitKeyword? previous quoting cs = some (Operator.like.text.toList, rest) := by
  cases cs with
  | nil => simp [keyword?] at h
  | cons c cs => rw [splitKeyword?_cons, h]

section Append

variable {previous : Option Char} {quoting : Quoting} {cs ds : List Char}
  (hletters : cs.getLast?.any Char.isAlpha = false ∨ ds.head?.any Char.isAlpha = false)
include hletters

/-- No keyword begins in the one text and ends in the other. -/
theorem keyword?_append_eq_none (hne : cs ≠ []) (h : keyword? previous quoting cs = none) :
    keyword? previous quoting (cs ++ ds) = none := by
  rw [Option.eq_none_iff_forall_ne_some] at h ⊢
  intro rest hsome
  obtain ⟨hq, heq, htouch⟩ := keyword?_eq_some_iff.mp hsome
  rw [Operator.touchesLetter, Bool.or_eq_false_iff] at htouch
  obtain ⟨r, hcs, hr⟩ := Operator.exists_of_append_eq like_isWord hne hletters heq htouch.2
  refine h r (keyword?_eq_some_iff.mpr ⟨hq, hcs, ?_⟩)
  rw [Operator.touchesLetter, htouch.1, hr]
  rfl

/-- A text without a keyword is passed over by the cursor that reads it. -/
theorem splitKeyword?_append {k k' : Cursor} (hk : k.run cs = some k')
    (hnone : splitKeyword? k.previous k.quoting cs = none) :
    splitKeyword? k.previous k.quoting (cs ++ ds) =
      (splitKeyword? k'.previous k'.quoting ds).map fun (before, rest) => (cs ++ before, rest) := by
  induction cs generalizing k with
  | nil =>
    cases hk
    simp
  | cons c cs ih =>
    obtain ⟨k₁, hk₁, hrun⟩ := Option.bind_eq_some_iff.mp hk
    rw [splitKeyword?_cons] at hnone
    cases hat : keyword? k.previous k.quoting (c :: cs) with
    | some rest => simp [hat] at hnone
    | none =>
      have hat' := keyword?_append_eq_none hletters (List.cons_ne_nil c cs) hat
      obtain ⟨depth, rfl⟩ := Cursor.eq_of_next hk₁
      simp only [hat, Option.map_eq_none_iff] at hnone
      have hrest := ih (letters_tail hletters) hrun hnone
      rw [List.cons_append] at hat' ⊢
      rw [splitKeyword?_cons, hat']
      simp only [hrest, Option.map_map]
      rfl

end Append

/-! ### What follows a keyword -/

section Replace

variable {previous : Option Char} {quoting : Quoting} {cs before rest rest' : List Char}

/-- Before a text that begins with no letter stand the keywords that stand there alone. -/
theorem keyword?_append (hne : cs ≠ []) (hrest : rest.head?.any Char.isAlpha = false) :
    keyword? previous quoting (cs ++ rest) = (keyword? previous quoting cs).map (· ++ rest) := by
  cases hat : keyword? previous quoting cs with
  | none => exact keyword?_append_eq_none (.inr hrest) hne hat
  | some r =>
    obtain ⟨hq, rfl, htouch⟩ := keyword?_eq_some_iff.mp hat
    refine keyword?_eq_some_iff.mpr ⟨hq, List.append_assoc .., ?_⟩
    cases r <;> simp_all [Operator.touchesLetter]

/-- The text up to the end of the keyword is not empty. -/
theorem ne_nil_of_splitKeyword? (h : splitKeyword? previous quoting cs = some (before, rest)) :
    before ≠ [] := by
  rintro rfl
  have hlength := length_lt_of_splitKeyword? h
  rw [eq_append_of_splitKeyword? h] at hlength
  simp at hlength

/-- No letter follows the keyword. -/
theorem isAlpha_of_splitKeyword? (h : splitKeyword? previous quoting cs = some (before, rest)) :
    rest.head?.any Char.isAlpha = false := by
  induction cs generalizing previous quoting before with
  | nil => simp [splitKeyword?] at h
  | cons c cs ih =>
    rw [splitKeyword?_cons] at h
    cases hat : keyword? previous quoting (c :: cs) with
    | some r =>
      rw [hat] at h
      cases h
      exact (Bool.or_eq_false_iff.mp (keyword?_eq_some_iff.mp hat).2.2).2
    | none =>
      rw [hat] at h
      obtain ⟨⟨b, r⟩, hfind, heq⟩ := Option.map_eq_some_iff.mp h
      cases heq
      exact ih hfind

/-- **The same keyword is found** before any text that begins with no letter. -/
theorem splitKeyword?_replace (h : splitKeyword? previous quoting cs = some (before, rest))
    (hrest : rest'.head?.any Char.isAlpha = false) :
    splitKeyword? previous quoting (before ++ rest') = some (before, rest') := by
  have hletter := isAlpha_of_splitKeyword? h
  induction cs generalizing previous quoting before with
  | nil => simp [splitKeyword?] at h
  | cons c cs ih =>
    have happend := eq_append_of_splitKeyword? h
    rw [splitKeyword?_cons] at h
    cases hat : keyword? previous quoting (c :: cs) with
    | some r =>
      rw [hat] at h
      cases h
      obtain ⟨hq, -, htouch⟩ := keyword?_eq_some_iff.mp hat
      rw [Operator.touchesLetter, Bool.or_eq_false_iff] at htouch
      refine splitKeyword?_of_keyword? (keyword?_eq_some_iff.mpr ⟨hq, rfl, ?_⟩)
      rw [Operator.touchesLetter, htouch.1, hrest]
      rfl
    | none =>
      rw [hat] at h
      obtain ⟨⟨b, r⟩, hfind, heq⟩ := Option.map_eq_some_iff.mp h
      cases heq
      rw [happend, keyword?_append (List.cons_ne_nil c b) hletter, Option.map_eq_none_iff] at hat
      have hat' := keyword?_append_eq_none (.inr hrest) (List.cons_ne_nil c b) hat
      rw [List.cons_append] at hat' ⊢
      rw [splitKeyword?_cons, hat']
      simp only [ih hfind, Option.map_some]

end Replace

/-- Where a text is read as from the start, it is searched as from the start. -/
theorem splitKeyword?_of_fresh {k : Cursor} {ds : List Char} (h : k.Fresh ds) :
    splitKeyword? k.previous k.quoting ds = splitKeyword? none .outside ds := by
  cases ds with
  | nil => rfl
  | cons d ds =>
    have hread : Tier.unaryText.read? k.previous (d :: ds) =
        Tier.unaryText.read? none (d :: ds) :=
      Tier.read?_congr h.letters .unaryText
    have hat : keyword? k.previous k.quoting (d :: ds) = keyword? none .outside (d :: ds) := by
      rw [keyword?, keyword?, h.quoting_next, hread]
    rw [splitKeyword?_cons, splitKeyword?_cons, hat, h.quoting_next]

/-! ### What is passed over -/

/-- The search for `like` finds in the whole of two texts what it finds in the second. -/
def PassesOver (cs ds : List Char) : Prop :=
  splitKeyword? none .outside (cs ++ ds) =
    (splitKeyword? none .outside ds).map fun (before, rest) => (cs ++ before, rest)

/-- **A balanced text without a keyword** is passed over. -/
theorem passesOver_of_balanced {cs ds : List Char} (hc : Balanced cs)
    (hnone : splitKeyword? none .outside cs = none) (h : Apart cs ds) : PassesOver cs ds := by
  obtain ⟨k, hk, hfresh⟩ := hc.exists_fresh h
  rw [PassesOver, ← splitKeyword?_of_fresh hfresh]
  exact splitKeyword?_append h.letters hk hnone

/-- **A sign** that is neither a quote nor a character of a word is passed over. -/
theorem passesOver_sign {c : Char} (hword : isWordChar c = false) (hquote : c ≠ '\'')
    (ds : List Char) : PassesOver [c] ds := by
  have hletter : c.isAlpha = false := by
    rw [Bool.eq_false_iff]
    intro halpha
    simpa [hword] using isWordChar_of_isAlpha halpha
  have hfresh : Cursor.Fresh ⟨some c, 0, .outside⟩ ds :=
    ⟨rfl, by simp, .inl hletter, fun _ => ⟨by simp [opensLiteral, hword], rfl⟩⟩
  have hat : keyword? none .outside (c :: ds) = none := by
    rw [Option.eq_none_iff_forall_ne_some]
    intro rest hsome
    have heq := (keyword?_eq_some_iff.mp hsome).2.1
    obtain rfl : c = 'l' := by simpa [Operator.text] using congrArg List.head? heq
    simp at hletter
  have hsearch := splitKeyword?_of_fresh hfresh
  rw [PassesOver, List.singleton_append, splitKeyword?_cons, hat,
    Quoting.next_eq_outside (by simp) hquote]
  simp only [hsearch, List.singleton_append]

theorem passesOver_blank {c : Char} (hc : Text.isBlank c = true) (ds : List Char) :
    PassesOver [c] ds :=
  passesOver_sign (isWordChar_of_isBlank hc) (ne_of_isBlank hc rfl) ds

theorem passesOver_open (ds : List Char) : PassesOver ['('] ds :=
  passesOver_sign (by decide +kernel) (by simp) ds

theorem passesOver_close (ds : List Char) : PassesOver [')'] ds :=
  passesOver_sign (by decide +kernel) (by simp) ds

theorem PassesOver.eq_none_iff {cs ds : List Char} (h : PassesOver cs ds) :
    splitKeyword? none .outside (cs ++ ds) = none ↔ splitKeyword? none .outside ds = none := by
  rw [h, Option.map_eq_none_iff]

/-- Nothing that is wrapped around a text is a keyword. -/
theorem splitKeyword?_of_stripWrapping {cs : List Char} (hc : Balanced cs)
    (h : splitKeyword? none .outside (stripWrapping cs) = none) :
    splitKeyword? none .outside cs = none := by
  refine of_stripWrapping (P := fun cs => Balanced cs → splitKeyword? none .outside cs = none)
    (fun {c} hb {cs} ih hc => ?_) (fun {c} hb {cs} ih hc => ?_) (fun {cs} hin ih _ => ?_)
    (fun _ => h) hc
  · exact (passesOver_blank hb cs).eq_none_iff.mpr (ih ((Balanced.cons_blank_iff hb).mp hc))
  · have hc := (Balanced.concat_blank_iff hb).mp hc
    exact (passesOver_of_balanced hc (ih hc) (apart_cons_blank hb cs [])).eq_none_iff.mpr
      ((passesOver_blank hb []).eq_none_iff.mpr rfl)
  · have hclose : Apart cs [')'] := apart_of_head? cs rfl (by simp)
    refine (passesOver_open (cs ++ [')'])).eq_none_iff.mpr ?_
    exact (passesOver_of_balanced hin (ih hin) hclose).eq_none_iff.mpr
      ((passesOver_close []).eq_none_iff.mpr rfl)

/-- No other operator is a keyword. -/
theorem splitKeyword?_text {op : Operator} (h : op ≠ .like) :
    splitKeyword? none .outside op.text.toList = none := by
  rcases op with (_ | _) | _ | _ | (_ | _ | _ | _ | _ | _)
  case like => exact absurd rfl h
  all_goals decide

/-- **The first keyword** of a text is the one after a balanced text that holds none. -/
theorem splitKeyword?_like {cs ds : List Char} (hc : Balanced cs)
    (hnone : splitKeyword? none .outside cs = none)
    (h : Apart cs Operator.like.text.toList) (hd : ds.head?.any Char.isAlpha = false) :
    splitKeyword? none .outside (cs ++ (Operator.like.text.toList ++ ds)) =
      some (cs ++ Operator.like.text.toList, ds) := by
  have hkeyword : keyword? none .outside (Operator.like.text.toList ++ ds) = some ds :=
    keyword?_eq_some_iff.mpr ⟨by simp, rfl, by simpa [Operator.touchesLetter] using hd⟩
  rw [passesOver_of_balanced hc hnone (h.append_right Operator.like.text_ne_nil ds),
    splitKeyword?_of_keyword? hkeyword]
  rfl

/-! ### What is changed -/

variable {change : List Char → List Char}

/-- A text without a keyword stays as it is. -/
theorem mapOperands_of_none {cs : List Char} (h : splitKeyword? none .outside cs = none) :
    mapOperands change cs = cs := by
  rw [mapOperands]
  split
  · rfl
  · simp_all

/-- After the first keyword the operand is changed. -/
theorem mapOperands_of_some {cs before rest : List Char}
    (h : splitKeyword? none .outside cs = some (before, rest)) :
    mapOperands change cs = before ++ rest.takeWhile Text.isBlank ++
      change (splitOperand (Text.trimStart rest)).1 ++
      mapOperands change (splitOperand (Text.trimStart rest)).2 := by
  rw [mapOperands]
  split
  · simp_all
  · rename_i heq
    rw [h] at heq
    cases heq
    rfl

/-- No change of the operands touches the start of a text. -/
theorem head?_mapOperands (change : List Char → List Char) (cs : List Char) :
    (mapOperands change cs).head? = cs.head? := by
  cases h : splitKeyword? none .outside cs with
  | none => rw [mapOperands_of_none h]
  | some found =>
    obtain ⟨before, rest⟩ := found
    have hne := ne_nil_of_splitKeyword? h
    rw [mapOperands_of_some h, eq_append_of_splitKeyword? h, List.head?_append_of_ne_nil _ hne]
    simp only [List.append_assoc, List.head?_append_of_ne_nil _ hne]

/-- What is passed over stays as it is. -/
theorem PassesOver.mapOperands_eq {cs ds : List Char} (h : PassesOver cs ds) :
    mapOperands change (cs ++ ds) = cs ++ mapOperands change ds := by
  rw [PassesOver] at h
  cases hfind : splitKeyword? none .outside ds with
  | none => rw [mapOperands_of_none hfind, mapOperands_of_none (by rw [h, hfind]; rfl)]
  | some found =>
    obtain ⟨before, rest⟩ := found
    rw [hfind, Option.map_some] at h
    rw [mapOperands_of_some hfind, mapOperands_of_some h]
    simp only [List.append_assoc]

end FeatureQuery.Wildcards
