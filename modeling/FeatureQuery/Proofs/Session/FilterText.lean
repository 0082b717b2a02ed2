import FeatureQuery.Proofs.Predicate.Compiling
import FeatureQuery.Proofs.Query.Reading
import FeatureQuery.Session.Basic

/-!
# What the text of a filter stands for

`Expresses schema text p` says that a text stands for a predicate: it denotes a condition, however
deep, that compiles to the predicate. Texts are combined in parentheses as predicates are combined
as trees, and the combined text stands for the combined predicate (`Expresses.combine`). How a text
is read follows from what it stands for: only a predicate that is too deep is not read again
(`Expresses.exists_parse`, `Expresses.parse_tooDeep`).
-/

namespace FeatureQuery

/-- The text denotes a condition that compiles to the predicate. -/
def Expresses (schema : Schema) (text : String) (p : Predicate) : Prop :=
  ∃ e, Denotes text.toList e ∧ compile schema e = .ok p

namespace Expresses

variable {schema : Schema} {text previous fresh : String} {p q combined : Predicate}

/-! ### Reading -/

theorem of_parse {e : Expr} (hparse : parse text = .ok e) (hcompile : compile schema e = .ok p) :
    Expresses schema text p :=
  ⟨e, (parse_eq_ok_iff.mp hparse).1, hcompile⟩

/-- The text of a predicate that is not too deep is read as a query that compiles to it. -/
theorem exists_parse (h : Expresses schema text p) (hdepth : p.depth ≤ 255) :
    ∃ e, parse text = .ok e ∧ compile schema e = .ok p := by
  obtain ⟨e, hd, hc⟩ := h
  have hlt : e.depth < maxLevels := by
    rw [← depth_of_compile hc, maxLevels]
    omega
  exact ⟨e, parse_eq_ok_iff.mpr ⟨hd, hlt⟩, hc⟩

/-- The text of a predicate that is too deep is refused for that. -/
theorem parse_tooDeep (h : Expresses schema text p) (hdepth : 255 < p.depth) :
    parse text = .error (.malformed text .tooDeep) := by
  obtain ⟨e, hd, hc⟩ := h
  have hge : ¬ e.depth < maxLevels := by
    rw [← depth_of_compile hc, maxLevels]
    omega
  rw [parse_of_denotes hd, if_neg hge]

/-! ### Combining -/

/-- Joined texts stand for the joined predicates. -/
theorem join (hp : Expresses schema previous p) (hq : Expresses schema fresh q)
    (connective : Connective) :
    Expresses schema ("(" ++ previous ++ ") " ++ connective.text ++ " " ++ fresh)
      (.join connective [p, q]) := by
  obtain ⟨e, he, hep⟩ := hp
  obtain ⟨f, hf, hfq⟩ := hq
  refine ⟨.join connective [e, f], ?_, ?_⟩
  · have htext : ("(" ++ previous ++ ") " ++ connective.text ++ " " ++ fresh).toList =
        '(' :: previous.toList ++ [')'] ++
          ' ' :: (connective.text.toList ++ ' ' :: fresh.toList) := by
      simp
    rw [htext]
    exact he.join_group hf connective
  · simp [compile, compileAll, hep, hfq]

theorem group (hp : Expresses schema text p) : Expresses schema ("(" ++ text ++ ")") p := by
  obtain ⟨e, he, hep⟩ := hp
  refine ⟨e, ?_, hep⟩
  simpa using he.group

theorem not (hp : Expresses schema text p) :
    Expresses schema ("not (" ++ text ++ ")") (.not p) := by
  obtain ⟨e, he, hep⟩ := hp
  refine ⟨.not e, ?_, by simp [compile, hep]⟩
  simpa [Operator.text] using he.not_group

/-- **The text of a combined filter stands for the combined predicate.** -/
theorem combine (hp : Expresses schema previous p) (hq : Expresses schema fresh q) {mode : Mode}
    (h : Predicate.combine mode (some p) q = .ok combined) :
    Expresses schema (combinedQuery mode previous fresh) combined := by
  cases mode with
  | replace =>
    cases h
    exact hq
  | and =>
    cases h
    have htext : combinedQuery .and previous fresh =
        "(" ++ previous ++ ") " ++ Connective.and.text ++ " " ++ ("(" ++ fresh ++ ")") := by
      simp [combinedQuery, Connective.text, ← String.toList_inj]
    rw [htext]
    exact hp.join hq.group .and
  | andNot =>
    cases h
    have htext : combinedQuery .andNot previous fresh =
        "(" ++ previous ++ ") " ++ Connective.and.text ++ " " ++ ("not (" ++ fresh ++ ")") := by
      simp [combinedQuery, Connective.text, ← String.toList_inj]
    rw [htext]
    exact hp.join hq.not .and
  | or =>
    cases h
    have htext : combinedQuery .or previous fresh =
        "(" ++ previous ++ ") " ++ Connective.or.text ++ " " ++ ("(" ++ fresh ++ ")") := by
      simp [combinedQuery, Connective.text, ← String.toList_inj]
    rw [htext]
    exact hp.join hq.group .or

end Expresses

end FeatureQuery
