import FeatureQuery.Query.Cursor
import FeatureQuery.Query.Operator
import FeatureQuery.Text.Blank
import FeatureQuery.Text.Offset

/-!
# Where a query splits

A query splits at an operator that lies outside all groups and literals. `findOperator` gives the
first operator of a tier, and `findNextOperator` the first of the weakest tier that has one. The
scan gives up at a closing parenthesis that closes nothing; in a group or literal that never ends it
finds nothing. Main statement: the parts of a split make up the text (`eq_append_of_findOperator`).

`stripWrapping` removes blanks and parentheses around a text, as long as they enclose all of it.
-/

namespace FeatureQuery

/-- A text split at an operator. -/
structure Split where
  /-- The text before the operator. -/
  before : List Char
  /-- The operator. -/
  operator : Operator
  /-- The text after the operator. -/
  after : List Char
  deriving DecidableEq

namespace Split

/-- The position of the operator, in bytes. -/
def start (s : Split) : Nat := Text.byteLength s.before

/-- The position after the operator, in bytes. -/
def stop (s : Split) : Nat := s.start + Text.byteLength s.operator.text.toList

/-- The whole text. -/
def whole (s : Split) : List Char := s.before ++ s.operator.text.toList ++ s.after

end Split

/-- The operator of a tier at the cursor, if the cursor is outside all groups and literals there,
and what follows it. -/
def operatorAt? (tier : Tier) (k : Cursor) : List Char → Option (Operator × List Char)
  | [] => none
  | c :: cs => if k.isPlain c then tier.read? k.previous (c :: cs) else none

/-- The first operator of a tier in the text that follows the cursor. -/
def findOperatorFrom (tier : Tier) (k : Cursor) : List Char → Option Split
  | [] => none
  | c :: cs =>
    match operatorAt? tier k (c :: cs) with
    | some (op, after) => some ⟨[], op, after⟩
    | none =>
      (k.next c).bind fun k =>
        (findOperatorFrom tier k cs).map fun s => { s with before := c :: s.before }

/-- The first operator of a tier in a text. -/
def findOperator (tier : Tier) (cs : List Char) : Option Split :=
  findOperatorFrom tier Cursor.start cs

/-- The operator at which a text splits: the first of the weakest tier that has one. -/
def findNextOperator (cs : List Char) : Option Split :=
  Tier.all.findSome? fun tier => findOperator tier cs

/-! ### The parts of a split -/

theorem eq_append_of_findOperatorFrom {tier : Tier} {k : Cursor} {cs : List Char} {s : Split}
    (h : findOperatorFrom tier k cs = some s) : s.whole = cs := by
  induction cs generalizing k s with
  | nil => simp [findOperatorFrom] at h
  | cons c cs ih =>
    simp only [findOperatorFrom] at h
    split at h
    · rename_i op after hop
      simp only [Option.some.injEq] at h
      subst h
      simp only [operatorAt?] at hop
      split at hop
      · simp [Split.whole, Tier.eq_append_of_read? hop]
      · simp at hop
    · obtain ⟨k', _, h⟩ := Option.bind_eq_some_iff.1 h
      obtain ⟨s', hs', rfl⟩ := Option.map_eq_some_iff.1 h
      have := ih hs'
      simp only [Split.whole, List.append_assoc] at this
      simp [Split.whole, this]

/-- **Nothing is lost at an operator.** -/
theorem eq_append_of_findOperator {tier : Tier} {cs : List Char} {s : Split}
    (h : findOperator tier cs = some s) : s.whole = cs :=
  eq_append_of_findOperatorFrom h

/-! ### Wrapping -/

/-- The text without the blanks around it, and without the parentheses that enclose all of it. -/
def stripWrapping (cs : List Char) : List Char :=
  match _h : Text.trim cs with
  | '(' :: rest =>
    match _hg : closeGroup Cursor.inGroup rest with
    | some (inside, []) => stripWrapping inside
    | _ => '(' :: rest
  | body => body
termination_by cs.length
decreasing_by
  have h1 := Text.length_trim_le cs
  have h2 := congrArg List.length (eq_append_of_closeGroup _hg)
  rw [_h] at h1
  simp only [List.length_cons, List.length_append, List.length_nil] at h1 h2
  omega

end FeatureQuery
