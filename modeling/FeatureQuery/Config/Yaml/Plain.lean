import FeatureQuery.Config.Yaml.Fold
import FeatureQuery.Config.Yaml.Place

/-!
# Plain scalars

A plain scalar is the text up to a colon that ends a key, to a comment, or, between brackets, to a
mark of that notation. It goes on over lines that are indented more deeply than what it belongs to,
and its lines are folded. `readPlain?` reads it from its first character and tells where it ends,
which is behind the blanks and line breaks that follow it.
-/

namespace FeatureQuery.Yaml

/-- Whether a character belongs to a plain scalar, given what follows it. -/
def isPlain (inFlow : Bool) (c : Char) (rest : List Char) : Bool :=
  if c == ':' then !(endsWord rest || (inFlow && rest.head?.any isFlow))
  else !(inFlow && isFlow c)

/-- How a plain scalar may go on. -/
inductive PlainCourse where
  /-- With anything. -/
  | any
  /-- With the end of the line or a comment, after a tab where spaces must indent. -/
  | blankLine
  /-- With the rest of a comment. -/
  | comment

/-- The rest of a plain scalar, and the place behind it. The lines of a scalar that is not between
brackets must be indented as far as the given column. `fold` is what stands before the next word, if
the last word has ended. -/
def readPlain? (inFlow : Bool) (indent : Int) :
    PlainCourse → Option Fold → (rest : List Char) → (line column : Nat) →
      Option (List Char × Place)
  | _, fold, [], line, column => some ([], ⟨[], line, column, fold.any Fold.isBroken⟩)
  | .comment, fold, c :: cs, line, column =>
    -- the line of a comment behind a tab does not count
    if c = '\n' then readPlain? inFlow indent .any fold cs (line + 1) 0
    else readPlain? inFlow indent .comment fold cs line (column + 1)
  | .blankLine, fold, c :: cs, line, column =>
    if c = '\n' then readPlain? inFlow indent .any (breakAfter fold) cs (line + 1) 0
    else if isGap c then readPlain? inFlow indent .blankLine fold cs line (column + 1)
    else if c = '#' then readPlain? inFlow indent .comment fold cs line (column + 1)
    else none
  | .any, fold, c :: cs, line, column =>
    let broken := fold.any Fold.isBroken
    if c = '\n' then readPlain? inFlow indent .any (breakAfter fold) cs (line + 1) 0
    else if isGap c then
      if broken = true ∧ c = '\t' ∧ (column : Int) < indent then
        readPlain? inFlow indent .blankLine fold cs line (column + 1)
      else readPlain? inFlow indent .any (blankAfter fold c) cs line (column + 1)
    else if (fold.isSome = true ∧ ((inFlow = false ∧ (column : Int) < indent) ∨ c = '#' ∨
        (broken = true ∧ column = 0 ∧ isDocumentMark (c :: cs) = true))) then
      some ([], ⟨c :: cs, line, column, broken⟩)
    else if fold.isSome = true ∧ inFlow = true ∧ c = '-' ∧ cs.head?.any isFlow = true then none
    else if isPlain inFlow c cs then
      (readPlain? inFlow indent .any none cs line (column + 1)).map fun (text, after) =>
        ((fold.map Fold.text).getD [] ++ c :: text, after)
    else some ([], ⟨c :: cs, line, column, broken⟩)

end FeatureQuery.Yaml
