import FeatureQuery.Query.Cursor
import FeatureQuery.Query.Operator
import FeatureQuery.Text.Blank
import FeatureQuery.Text.Literal

/-!
# Display wildcards

Users write `%` for any run of characters and `_` for any one character, where a pattern has `.*`
and `.`. Only the operands of `like` change, so that field names and values keep their underscores
and points. The keyword is a `like` that stands on its own outside all literals; its operand is a
quoted literal, or the characters up to the next blank or closing parenthesis. The search for the
next keyword begins afresh after each operand.
-/

namespace FeatureQuery.Wildcards

/-- Splits a text after the first `like` that stands on its own outside all literals: the text up to
and with the keyword, and what follows. -/
def splitKeyword? (previous : Option Char) (quoting : Quoting) :
    List Char → Option (List Char × List Char)
  | [] => none
  | c :: cs =>
    let next := quoting.next previous c
    match if next = .outside then Tier.unaryText.read? previous (c :: cs) else none with
    | some (.like, rest) => some (Operator.like.text.toList, rest)
    | _ => (splitKeyword? (some c) next cs).map fun (before, rest) => (c :: before, rest)

/-- Whether a character ends an operand that is not quoted. -/
def endsOperand (c : Char) : Bool := Text.isBlank c || c == ')'

/-- Splits a text after its first operand. A literal that never ends is an operand as a whole. -/
def splitOperand : List Char → List Char × List Char
  | '\'' :: cs =>
    match Text.closeLiteral cs with
    | some (body, rest) => ('\'' :: (body ++ ['\'']), rest)
    | none => ('\'' :: cs, [])
  | cs => (cs.takeWhile fun c => !endsOperand c, cs.dropWhile fun c => !endsOperand c)

/-! ### What is split makes up the text -/

theorem eq_append_of_splitKeyword? {previous : Option Char} {quoting : Quoting}
    {cs before rest : List Char} (h : splitKeyword? previous quoting cs = some (before, rest)) :
    cs = before ++ rest := by
  induction cs generalizing previous quoting before with
  | nil => simp [splitKeyword?] at h
  | cons c cs ih =>
    simp only [splitKeyword?] at h
    split at h
    · rename_i r heq
      simp only [Option.some.injEq, Prod.mk.injEq] at h
      obtain ⟨rfl, rfl⟩ := h
      split at heq
      · exact Tier.eq_append_of_read? heq
      · simp at heq
    · obtain ⟨⟨b, r⟩, hb, heq⟩ := Option.map_eq_some_iff.1 h
      simp only [Prod.mk.injEq] at heq
      obtain ⟨rfl, rfl⟩ := heq
      simp [ih hb]

theorem splitOperand_append (cs : List Char) : (splitOperand cs).1 ++ (splitOperand cs).2 = cs := by
  unfold splitOperand
  split
  · split
    · rename_i body rest h
      simp [Text.eq_append_of_closeLiteral h]
    · simp
  · exact List.takeWhile_append_dropWhile

/-- Only a keyword that is not empty is found. -/
theorem length_lt_of_splitKeyword? {previous : Option Char} {quoting : Quoting}
    {cs before rest : List Char} (h : splitKeyword? previous quoting cs = some (before, rest)) :
    rest.length < cs.length := by
  have happ := congrArg List.length (eq_append_of_splitKeyword? h)
  have hne : before ≠ [] := by
    cases cs with
    | nil => simp [splitKeyword?] at h
    | cons c cs =>
      simp only [splitKeyword?] at h
      split at h
      · simp only [Option.some.injEq, Prod.mk.injEq] at h
        rw [← h.1]
        decide
      · obtain ⟨⟨b, r⟩, _, heq⟩ := Option.map_eq_some_iff.1 h
        simp only [Prod.mk.injEq] at heq
        simp [← heq.1]
  have hpos := List.length_pos_iff.2 hne
  simp only [List.length_append] at happ
  omega

/-- Changes the operand of every `like`. -/
def mapOperands (change : List Char → List Char) (cs : List Char) : List Char :=
  match _h : splitKeyword? none .outside cs with
  | none => cs
  | some (before, rest) =>
    -- the blanks before the operand stay as they are
    let blanks := rest.takeWhile Text.isBlank
    let split := splitOperand (Text.trimStart rest)
    before ++ blanks ++ change split.1 ++ mapOperands change split.2
termination_by cs.length
decreasing_by
  have h1 := length_lt_of_splitKeyword? _h
  have h2 := congrArg List.length (splitOperand_append (Text.trimStart rest))
  have h3 := Text.length_trimStart_le rest
  simp only [List.length_append] at h2
  omega

/-! ### The two directions -/

/-- Any run for `%`, and any one character for `_`. -/
def toPatternOperand (cs : List Char) : List Char :=
  cs.flatMap fun c => if c = '%' then ['.', '*'] else if c = '_' then ['.'] else [c]

/-- The display wildcard for `.*` and for any other point. -/
def toDisplayOperand : List Char → List Char
  | [] => []
  | '.' :: '*' :: cs => '%' :: toDisplayOperand cs
  | c :: cs => (if c = '.' then '_' else c) :: toDisplayOperand cs

/-- The query with patterns in the place of display wildcards. -/
def toPattern (query : String) : String := String.ofList (mapOperands toPatternOperand query.toList)

/-- The query with display wildcards in the place of patterns. -/
def toDisplay (query : String) : String := String.ofList (mapOperands toDisplayOperand query.toList)

end FeatureQuery.Wildcards
