import FeatureQuery.Text.Alphanumeric

/-!
# Groups and literals

A query is read from left to right, one character at a time, by a cursor that knows the character
before it, how many parentheses are open, and whether it stands in a quoted literal. A single quote
opens a literal unless it follows a character of a word, so that the apostrophe of `L'Hospitalet` is
a plain character; inside a literal a doubled quote stands for a quote, and parentheses mean
nothing. `Cursor.next` reads one character. It fails at a closing parenthesis that closes nothing.
-/

namespace FeatureQuery

/-- A character of a word: a letter, a number or an underscore. -/
def isWordChar (c : Char) : Bool := Text.isAlphanumeric c || c == '_'

/-- Whether a single quote after this character opens a literal. -/
def opensLiteral (previous : Option Char) : Bool := !previous.any isWordChar

/-- Where a reading stands with regard to quoted literals. -/
inductive Quoting where
  /-- Outside all literals. -/
  | outside
  /-- Inside a literal. -/
  | inside
  /-- After a quote in a literal, which ends it unless another quote follows. -/
  | ended
  deriving DecidableEq

/-- Reads one character after the given one. The character lies outside all literals when the answer
is `outside`. -/
def Quoting.next (previous : Option Char) : Quoting → Char → Quoting
  | .outside, c => if c = '\'' ∧ opensLiteral previous then .inside else .outside
  | .inside, c => if c = '\'' then .ended else .inside
  | .ended, c => if c = '\'' then .inside else .outside

/-- How far the reading of a query has come. -/
structure Cursor where
  /-- The character just read. -/
  previous : Option Char
  /-- How many parentheses are open. -/
  depth : Nat
  /-- Where the reading stands with regard to literals. -/
  quoting : Quoting
  deriving DecidableEq

namespace Cursor

/-- Before the first character of a text. -/
def start : Cursor := ⟨none, 0, .outside⟩

/-- After an opening parenthesis, when only those that follow it are counted. -/
def inGroup : Cursor := ⟨some '(', 0, .outside⟩

/-- Whether a character that is read now lies outside all groups and literals. -/
def isPlain (k : Cursor) (c : Char) : Bool :=
  k.depth = 0 && k.quoting.next k.previous c = .outside

/-- Reads one character. -/
def next (k : Cursor) (c : Char) : Option Cursor :=
  match k.quoting.next k.previous c with
  | .outside =>
    if c = '(' then some ⟨some c, k.depth + 1, .outside⟩
    else if c = ')' then
      match k.depth with
      | 0 => none
      | depth + 1 => some ⟨some c, depth, .outside⟩
    else some ⟨some c, k.depth, .outside⟩
  -- parentheses in a literal are not counted
  | quoting => some ⟨some c, k.depth, quoting⟩

/-- Reads a text. -/
def run (k : Cursor) : List Char → Option Cursor
  | [] => some k
  | c :: cs => (k.next c).bind fun k => k.run cs

theorem run_append (k : Cursor) (cs ds : List Char) :
    k.run (cs ++ ds) = (k.run cs).bind fun k => k.run ds := by
  induction cs generalizing k with
  | nil => rfl
  | cons c cs ih =>
    simp only [List.cons_append, run]
    cases k.next c with
    | none => rfl
    | some k => exact ih k

end Cursor

/-- Splits a text at the closing parenthesis that closes nothing in it: what stands before it, and
what follows. -/
def closeGroup (k : Cursor) : List Char → Option (List Char × List Char)
  | [] => none
  | c :: cs =>
    match k.next c with
    | none => some ([], cs)
    | some k => (closeGroup k cs).map fun (inside, after) => (c :: inside, after)

/-- Only a closing parenthesis stops a cursor. -/
theorem Cursor.eq_close_of_next {k : Cursor} {c : Char} (h : k.next c = none) : c = ')' := by
  unfold Cursor.next at h
  split at h
  · split at h
    · simp at h
    · split at h
      · assumption
      · simp at h
  · simp at h

/-- Nothing is lost at the closing parenthesis. -/
theorem eq_append_of_closeGroup {k : Cursor} {cs inside after : List Char}
    (h : closeGroup k cs = some (inside, after)) : cs = inside ++ ')' :: after := by
  induction cs generalizing k inside with
  | nil => simp [closeGroup] at h
  | cons c cs ih =>
    simp only [closeGroup] at h
    split at h
    · rename_i hn
      simp only [Option.some.injEq, Prod.mk.injEq] at h
      obtain ⟨rfl, rfl⟩ := h
      simp [Cursor.eq_close_of_next hn]
    · obtain ⟨⟨i, a⟩, hi, heq⟩ := Option.map_eq_some_iff.1 h
      simp only [Prod.mk.injEq] at heq
      obtain ⟨rfl, rfl⟩ := heq
      simp [ih hi]

end FeatureQuery
