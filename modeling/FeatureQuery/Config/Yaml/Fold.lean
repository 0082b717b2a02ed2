/-!
# Folding of line breaks

A scalar may go on over several lines. Between two of its words stand blanks or line breaks: blanks
are kept while they stand within a line, one line break becomes a space, and of several the first
does not count. After a line break that is escaped, every further one counts.
-/

namespace FeatureQuery.Yaml

/-- What stands between two words of a scalar. -/
inductive Fold where
  /-- Blanks within a line. -/
  | blanks (cs : List Char)
  /-- A line break, and so many further ones. -/
  | broken (further : Nat)
  /-- An escaped line break, and so many further ones. -/
  | joined (further : Nat)

namespace Fold

/-- Whether a line break came. -/
def isBroken : Fold → Bool
  | .blanks _ => false
  | _ => true

/-- A further blank. At the start of a line it does not count. -/
def addBlank (c : Char) : Fold → Fold
  | .blanks cs => .blanks (cs ++ [c])
  | fold => fold

/-- A further line break. -/
def addBreak : Fold → Fold
  | .blanks _ => .broken 0
  | .broken further => .broken (further + 1)
  | .joined further => .joined (further + 1)

/-- What it becomes in the scalar. -/
def text : Fold → List Char
  | .blanks cs => cs
  | .broken 0 => [' ']
  | .broken further => List.replicate further '\n'
  | .joined further => List.replicate further '\n'

end Fold

/-- What stands between two words, when a blank follows. -/
def blankAfter (fold : Option Fold) (c : Char) : Fold := (fold.getD (.blanks [])).addBlank c

/-- What stands between two words, when a line break follows. -/
def breakAfter (fold : Option Fold) : Fold := (fold.getD (.blanks [])).addBreak

end FeatureQuery.Yaml
