import FeatureQuery.Proofs.Query.Printing
import FeatureQuery.Proofs.Query.Scanning

/-!
# Operators inside names

A word is made of letters and numbers of any alphabet and of underscores. No sign, blank, quote or
parenthesis is in it, so the only operators that a search may find there are those that are words,
and it finds one exactly where no letter of the ASCII alphabet touches it
(`IsWord.findNextOperator_eq_none_iff`). A word in which every such operator is touched by a letter
is self-contained, and names what it is compared with (`parse_compare_words`); no other word is an
operand of any comparison that is read (`operatorsTouched_of_parse`).

Digits and underscores are no letters, so not every word is a name: `not24h = 1` is the opposite of
`24h = 1` (`parse_compare_words_digit`).
-/

namespace FeatureQuery

/-- Letters and numbers of any alphabet and underscores, and at least one of them. -/
structure IsWord (s : String) : Prop where
  ne_empty : s.toList ≠ []
  isWordChar_of_mem : ∀ c ∈ s.toList, isWordChar c = true

instance (s : String) : Decidable (IsWord s) :=
  decidable_of_iff (s.toList ≠ [] ∧ s.toList.all isWordChar = true)
    ⟨fun h => ⟨h.1, List.all_eq_true.mp h.2⟩, fun h => ⟨h.1, List.all_eq_true.mpr h.2⟩⟩

/-- Wherever an operator that is a word is written in the text, a letter of the ASCII alphabet
stands directly before or after it. -/
def OperatorsTouched (cs : List Char) : Prop :=
  ∀ (op : Operator) (before after : List Char), op.isWord = true →
    cs = before ++ (op.text.toList ++ after) →
      Operator.touchesLetter before.getLast? after.head? = true

/-! ### Characters of words -/

section Characters

variable {c d : Char} {cs : List Char}

theorem ne_of_isWordChar (hc : isWordChar c = true) (hd : isWordChar d = false) : c ≠ d := by
  rintro rfl
  simp [hc] at hd

theorem isBlank_of_isWordChar (hc : isWordChar c = true) : Text.isBlank c = false := by
  rw [Bool.eq_false_iff]
  intro hblank
  simp [isWordChar_of_isBlank hblank] at hc

/-- Characters of words stand for themselves. -/
theorem wholePieces_of_isWordChar (h : ∀ c ∈ cs, isWordChar c = true)
    (previous next : Option Char) :
    WholePieces previous cs next := by
  induction cs generalizing previous with
  | nil => exact .nil
  | cons c cs ih =>
    obtain ⟨hc, hcs⟩ := List.forall_mem_cons.mp h
    have hquote : c ≠ '\'' := ne_of_isWordChar hc rfl
    exact .plain (ne_of_isWordChar hc rfl) (ne_of_isWordChar hc rfl) (absurd · hquote) (ih hcs _)

/-- A sign of a comparison is no character of a word. -/
theorem Operator.exists_not_isWordChar {op : Operator} (h : op.isWord = false) :
    ∃ c ∈ op.text.toList, isWordChar c = false := by
  have hany : op.text.toList.any (fun c => !isWordChar c) = true := by
    rcases op with _ | _ | _ | (_ | _ | _ | _ | _ | _)
    case join | not | like => simp [Operator.isWord] at h
    all_goals decide
  simpa using hany

end Characters

/-- **A text of whole pieces** is balanced. -/
theorem WholePieces.balanced {cs : List Char} (h : WholePieces none cs none) : Balanced cs := by
  obtain ⟨k, hrun, hd, hout⟩ := h.exists_run (k := Cursor.start) rfl
    (Cursor.outsideBefore_of_outside rfl _)
  exact ⟨k, hrun, hd, hout.quoting⟩

namespace IsWord

variable {s : String}

theorem stripWrapping_eq (h : IsWord s) : stripWrapping s.toList = s.toList := by
  have hend : ∀ {c : Option Char}, (∀ d, c = some d → d ∈ s.toList) →
      c.any Text.isBlank = false := by
    intro c hmem
    cases c with
    | none => rfl
    | some c => exact isBlank_of_isWordChar (h.isWordChar_of_mem c (hmem c rfl))
  refine stripWrapping_eq_self_iff.mpr ⟨Text.trim_eq_self (hend fun _ => List.mem_of_head?)
    (hend fun _ => List.mem_of_getLast?), fun inside hgroup => ?_⟩
  have hopen : '(' ∈ s.toList := by simp [hgroup.eq]
  exact ne_of_isWordChar (h.isWordChar_of_mem '(' hopen) rfl rfl

/-- **Where an operator is found in a word**: exactly where it is a word itself and no letter
touches it. -/
theorem findNextOperator_eq_none_iff (h : IsWord s) :
    findNextOperator s.toList = none ↔ OperatorsTouched s.toList := by
  rw [FeatureQuery.findNextOperator_eq_none_iff]
  constructor
  · intro hnone op before after hword heq
    by_contra htouched
    rw [Bool.not_eq_true] at htouched
    have hlongest := (Tier.read?_eq_some_iff.mp (Operator.read?_word hword htouched)).2.2.1
    have hbefore : ∀ c ∈ before, isWordChar c = true := fun c hc =>
      h.isWordChar_of_mem c (by simp [heq, hc])
    have hat : OperatorAt op.tier s.toList ⟨before, op, after⟩ :=
      { whole_eq := by rw [heq, Split.whole, List.append_assoc]
        pieces := wholePieces_of_isWordChar hbefore none _
        tier_eq := rfl
        longest := hlongest
        alone := fun _ => Bool.or_eq_false_iff.mp htouched }
    exact findOperator_eq_none_iff.mp (hnone op.tier) _ hat
  · intro htouched tier
    refine findOperator_eq_none_iff.mpr fun split hat => ?_
    have heq : s.toList = split.before ++ (split.operator.text.toList ++ split.after) := by
      rw [← hat.whole_eq, Split.whole, List.append_assoc]
    cases hword : split.operator.isWord with
    | true =>
      have hletter := htouched _ _ _ hword heq
      have halone := hat.alone hword
      simp [Operator.touchesLetter, halone] at hletter
    | false =>
      obtain ⟨c, hc, hsign⟩ := Operator.exists_not_isWordChar hword
      have hchar := h.isWordChar_of_mem c (by simp [heq, hc])
      simp [hsign] at hchar

/-- **A word whose operators are all touched** is an operand wherever it stands. -/
theorem isSelfContained (h : IsWord s) (htouched : OperatorsTouched s.toList) :
    IsSelfContained s where
  ne_empty := h.ne_empty
  stripWrapping_eq := h.stripWrapping_eq
  checkBalance_eq := checkBalance_eq_ok_iff.mpr
    (wholePieces_of_isWordChar h.isWordChar_of_mem none none).balanced
  noOperator := h.findNextOperator_eq_none_iff.mpr htouched

end IsWord

/-! ### Comparisons of words -/

variable {w v : String}

/-- **The operands of a comparison that is read**, as far as they are words, have no operator that
no letter touches. -/
theorem operatorsTouched_of_parse {query : String} {op : Comparison} (hw : IsWord w) (hv : IsWord v)
    (h : parse query = .ok (.compare op w v)) :
    OperatorsTouched w.toList ∧ OperatorsTouched v.toList := by
  have hreads : Reads (stripWrapping query.toList) (.compare op w v) := (parse_eq_ok_iff.mp h).1.2
  cases hreads with
  | compare split left right =>
    refine ⟨hw.findNextOperator_eq_none_iff.mp ?_, hv.findNextOperator_eq_none_iff.mp ?_⟩
    · rw [String.toList_ofList]
      exact left.2
    · rw [String.toList_ofList]
      exact right.2

/-- **A comparison of words is read as it is written**, whatever operators the words hold, if a
letter touches each of these. -/
theorem parse_compare_words (hw : IsWord w) (hv : IsWord v) (hfield : OperatorsTouched w.toList)
    (hvalue : OperatorsTouched v.toList) (op : Comparison) :
    parse (w ++ " " ++ op.text ++ " " ++ v) = .ok (.compare op w v) :=
  (hw.isSelfContained hfield).parse_compare (hv.isSelfContained hvalue) op

/-- Operators stand at the start, at the end and next to a digit, each with a letter on one side at
least. -/
theorem parse_compare_words_andalucia :
    OperatorsTouched "andalucía_9notas".toList ∧ OperatorsTouched "2Mallorca_color".toList ∧
      parse "andalucía_9notas >= 2Mallorca_color" =
        .ok (.compare .ge "andalucía_9notas" "2Mallorca_color") := by
  have hw : IsWord "andalucía_9notas" := by decide +kernel
  have hv : IsWord "2Mallorca_color" := by decide +kernel
  have hfield : OperatorsTouched "andalucía_9notas".toList :=
    hw.findNextOperator_eq_none_iff.mp (by decide +kernel)
  have hvalue : OperatorsTouched "2Mallorca_color".toList :=
    hv.findNextOperator_eq_none_iff.mp (by decide +kernel)
  exact ⟨hfield, hvalue, parse_compare_words hw hv hfield hvalue .ge⟩

/-- **A digit keeps no name together.** `not24h` is a word and no operator, but `not` is read at its
start; so not every comparison of words that are no operators is read as it is written. -/
theorem parse_compare_words_digit :
    parse "not24h = 1" = .ok (.not (.compare .eq "24h" "1")) ∧
      ¬ ∀ (w v : String) (op : Comparison), IsWord w → IsWord v →
        (∀ word : Operator, word.isWord = true → w ≠ word.text ∧ v ≠ word.text) →
          parse (w ++ " " ++ op.text ++ " " ++ v) = .ok (.compare op w v) := by
  have hnot : parse "not24h = 1" = .ok (.not (.compare .eq "24h" "1")) := by decide +kernel
  refine ⟨hnot, fun hall => ?_⟩
  have hcompare : parse "not24h = 1" = .ok (.compare .eq "not24h" "1") := by
    refine hall "not24h" "1" .eq (by decide +kernel) (by decide +kernel) fun word _ => ?_
    rcases word with (_ | _) | _ | _ | (_ | _ | _ | _ | _ | _) <;> decide
  have hsame := hnot.symm.trans hcompare
  simp at hsame

end FeatureQuery
