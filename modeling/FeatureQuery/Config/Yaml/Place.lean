/-!
# Places in a YAML text

A place is what follows it in the text, with the line and the column where it stands. Indentation is
told by columns, and a line is fresh as long as it holds nothing but blanks. Blanks are the space
and the tab; a comment reaches from a number sign to the end of its line.
-/

namespace FeatureQuery.Yaml

/-- A place in a text. -/
structure Place where
  /-- What follows. -/
  rest : List Char
  /-- How many lines have ended before. -/
  line : Nat
  /-- How many characters stand before in the line. -/
  column : Nat
  /-- Whether only blanks stand before in the line. -/
  fresh : Bool

/-- A blank within a line. -/
def isGap (c : Char) : Bool := c == ' ' || c == '\t'

/-- A mark of the notation with brackets and braces. -/
def isFlow (c : Char) : Bool := [',', '[', ']', '\x7b', '\x7d'].contains c

/-- Whether the text ends here or goes on with a blank or a line break. -/
def endsWord : List Char → Bool
  | [] => true
  | c :: _ => isGap c || c == '\n'

/-- Whether a mark that begins or ends a document follows, given that a line begins here. -/
def isDocumentMark : List Char → Bool
  | '-' :: '-' :: '-' :: rest => endsWord rest
  | '.' :: '.' :: '.' :: rest => endsWord rest
  | _ => false

namespace Place

/-- The place before a text. -/
def start (cs : List Char) : Place := ⟨cs, 0, 0, true⟩

/-- The place after some characters of the line that are not all blank. -/
def skip (p : Place) (count : Nat) : Place :=
  ⟨p.rest.drop count, p.line, p.column + count, false⟩

/-- Whether the line ends here. -/
def endsLine (p : Place) : Bool := p.rest.head?.all (· == '\n')

/-- The rest of a line after a token, up to a word or the end of the line. -/
structure Gap where
  /-- Whether it holds a space. -/
  spaces : Bool
  /-- Whether it holds a tab. -/
  tabs : Bool
  /-- The place behind it. -/
  after : Place

/-- The blanks that follow in the line, and a comment behind them. A comment must not follow at
once. -/
def gap? (p : Place) : Option Gap :=
  let blanks := p.rest.takeWhile isGap
  let rest := p.rest.dropWhile isGap
  let column := p.column + blanks.length
  let gap := fun after => some ⟨blanks.contains ' ', blanks.contains '\t', after⟩
  if rest.head? = some '#' then
    if blanks = [] then none
    else
      gap ⟨rest.dropWhile (· ≠ '\n'), p.line, column + (rest.takeWhile (· ≠ '\n')).length, false⟩
  else
    gap ⟨rest, p.line, column, p.fresh⟩

/-! ### The next token -/

/-- What may follow between two tokens. -/
inductive Between where
  /-- Blanks, a comment, a line break or a token. -/
  | any
  /-- After a tab where a token must be indented by spaces: all but a token. -/
  | blankLine
  /-- The rest of a comment. -/
  | comment

/-- The next token after blanks, comments and line breaks, and whether a line break came before it.
On a fresh line a tab before the given column must not come before a token. -/
def toToken? (indent : Int) (broken : Bool) :
    Between → (rest : List Char) → (line column : Nat) → (fresh : Bool) → Option (Place × Bool)
  | _, [], line, column, fresh => some (⟨[], line, column, fresh⟩, broken)
  | between, c :: cs, line, column, fresh =>
    if c = '\n' then toToken? indent true .any cs (line + 1) 0 true
    else
      match between with
      | .comment => toToken? indent broken .comment cs line (column + 1) false
      | between =>
        if c = '#' then toToken? indent broken .comment cs line (column + 1) false
        else if c = '\t' ∧ fresh = true ∧ (column : Int) < indent then
          toToken? indent broken .blankLine cs line (column + 1) fresh
        else if isGap c then toToken? indent broken between cs line (column + 1) fresh
        else
          match between with
          | .any => some (⟨c :: cs, line, column, fresh⟩, broken)
          | _ => none

end Place

end FeatureQuery.Yaml
