import FeatureQuery.Config.Yaml.Plain
import FeatureQuery.Config.Yaml.Quoted
import FeatureQuery.Config.Yaml.Scalar

/-!
# The tokens of a YAML text

Indentation becomes tokens: a block begins where an item or a key stands deeper than the block
around it, and ends where a token stands less deep. A `Scan` keeps the open blocks while the tokens
are read from left to right, and `Scan.step?` reads one. Blocks may hold sequences between brackets,
and within those neither indentation nor line breaks matter, but for the indentation of the block
around them.

The notation is a part of YAML: there are no braces, anchors, tags, directives, keys with a question
mark and literal blocks, and a key is a scalar.
-/

namespace FeatureQuery.Yaml

/-- A token of a YAML text. -/
inductive Token where
  /-- The mark that begins a document. -/
  | documentStart
  /-- The mark that ends a document. -/
  | documentEnd
  /-- The begin of a block mapping. -/
  | beginMapping
  /-- The begin of a block sequence. -/
  | beginSequence
  /-- The end of a block mapping or a block sequence that has a begin. -/
  | endBlock
  /-- The mark `[`. -/
  | beginList
  /-- The mark `]`. -/
  | endList
  /-- The mark `,` between brackets. -/
  | comma
  /-- The hyphen before an item of a block sequence. -/
  | item
  /-- A key with its colon. -/
  | key (s : Scalar)
  /-- A scalar that is no key. -/
  | scalar (s : Scalar)
  deriving DecidableEq

/-- An indentation. -/
structure Level where
  /-- The column of the indentation around it; before the first column there is `-1`. -/
  around : Int
  /-- Whether a block has it. Otherwise it is that of what follows a key or a hyphen. -/
  isBlock : Bool

/-- How far a text is read. -/
structure Scan where
  /-- Where the next token is looked for. -/
  place : Place
  /-- The column of the current indentation. -/
  indent : Int := -1
  /-- The indentations, from the current one outwards. -/
  levels : List Level := []
  /-- How many brackets are open. -/
  depth : Nat := 0
  /-- Whether a key or a hyphen may stand here. -/
  keyAllowed : Bool := true

/-- How deep brackets may nest. -/
def maxDepth : Nat := 255

/-- How many characters a key may have before its colon, outside brackets. -/
def maxKeyLength : Nat := 1024

namespace Scan

/-! ### Indentation -/

/-- Leaves the indentations that are deeper than a column, and ends their blocks. -/
def leaveLevels (column indent : Int) : List Level → Int × List Level × List Token
  | [] => (indent, [], [])
  | level :: levels =>
    if indent ≤ column then (indent, level :: levels, [])
    else
      let (indent, levels, tokens) := leaveLevels column level.around levels
      (indent, levels, if level.isBlock then .endBlock :: tokens else tokens)

/-- Leaves the blocks that are deeper than a column. Between brackets no block ends. -/
def leaveTo (s : Scan) (column : Int) : Scan × List Token :=
  if 0 < s.depth then (s, [])
  else
    let (indent, levels, tokens) := leaveLevels column s.indent s.levels
    ({ s with indent, levels }, tokens)

/-- Takes back the current indentation if no block has it. -/
def leaveSpare (s : Scan) : Scan :=
  match s.levels with
  | ⟨around, false⟩ :: levels => { s with indent := around, levels }
  | _ => s

/-- Whether a block has the current indentation. -/
def inBlock (s : Scan) : Bool := s.levels.head?.any Level.isBlock

/-- Begins a block in a column, unless it goes on there. -/
def enter (s : Scan) (column : Nat) (token : Token) : Scan × List Token :=
  if 0 < s.depth then (s, [])
  else
    let s := if s.indent ≤ column then s.leaveSpare else s
    if s.indent < column then
      ({ s with indent := column, levels := ⟨s.indent, true⟩ :: s.levels }, [token])
    else (s, [])

/-- Indents by one column what follows a key or a hyphen. -/
def enterOne (s : Scan) : Scan :=
  if s.depth = 0 ∧ s.inBlock = true then
    { s with indent := s.indent + 1, levels := ⟨s.indent, false⟩ :: s.levels }
  else s

/-- Whether a scalar here must be a key. -/
def keyRequired (s : Scan) : Bool :=
  s.keyAllowed && s.depth == 0 && s.indent == s.place.column && s.inBlock

/-! ### Moving on -/

/-- Moves to the next token. A line break outside brackets allows a key again. -/
def toToken? (s : Scan) : Option Scan := do
  let p := s.place
  let (place, broken) ← Place.toToken? s.indent false .any p.rest p.line p.column p.fresh
  some { s with place, keyAllowed := s.keyAllowed || (broken && s.depth == 0) }

/-- Moves past a mark of one character and past the gap behind it. -/
def skipMark? (s : Scan) : Option (Scan × Place.Gap) := do
  let gap ← (s.place.skip 1).gap?
  some ({ s with place := gap.after }, gap)

/-! ### Scalars -/

/-- Whether a colon here ends a key: before a blank, and between brackets also before one of their
marks or right behind a quoted scalar. -/
def isKeyEnd (s : Scan) (quoted : Bool) : Bool :=
  match s.place.rest with
  | ':' :: rest => endsWord rest || (decide (0 < s.depth) && (quoted || rest.head?.any isFlow))
  | _ => false

/-- Moves past the colon of a key. After a tab, what looks like the start of a block or a word must
not follow. -/
def skipColon? (s : Scan) : Option Scan :=
  let place := s.place.skip 1
  if place.rest.head? = some '\t' then do
    let gap ← place.gap?
    let next := gap.after.rest.head?
    if !gap.spaces && next.any fun c => c.isAlphanum || c == '-' || c == '_' then none
    else some { s with place := gap.after }
  else some { s with place }

/-- The tokens of a scalar that was read: a key if a colon follows on the line where it began, and a
value otherwise. -/
def afterScalar? (before after : Scan) (quoted : Bool) (scalar : Scalar) :
    Option (List Token × Scan) :=
  let start := before.place
  if after.isKeyEnd quoted then
    let near := after.place.column ≤ start.column + maxKeyLength || decide (0 < after.depth)
    let nested := !quoted && (after.place.rest.drop 1).head?.any fun c => c == '[' || c == '\x7b'
    if before.keyAllowed && start.line == after.place.line && near && !nested then do
      let after ← after.skipColon?
      let (after, tokens) := after.enter start.column .beginMapping
      some (tokens ++ [.key scalar], { after.enterOne with keyAllowed := false })
    else none
  else if before.keyRequired then none
  else some ([.scalar scalar], after)

/-- Reads a plain scalar. -/
def plain? (s : Scan) : Option (List Token × Scan) :=
  let after := s.leaveSpare
  let p := s.place
  let inFlow := decide (0 < s.depth)
  let indent := after.indent + 1
  match p.rest with
  | [] => none
  | c :: cs =>
    if inFlow && (decide ((p.column : Int) < indent) || (c == '-' && cs.head?.any isFlow)) then none
    else do
      let (text, place) ← readPlain? inFlow indent .any none p.rest p.line p.column
      s.afterScalar? { after with place, keyAllowed := place.fresh } false (.ofPlain text)

/-- Reads a quoted scalar. A mark of the notation around it or the end of the line must follow. -/
def quoted? (s : Scan) (quotes : Quotes) : Option (List Token × Scan) := do
  let p := s.place
  let (text, place) ← readQuoted? quotes s.indent none (p.rest.drop 1) p.line (p.column + 1)
  let gap ← place.gap?
  let next := gap.after.rest.head?
  let ends := gap.after.endsLine || if s.depth = 0 then next == some ':' && p.line == gap.after.line
    else [some ',', some ']', some '\x7d', some ':'].contains next
  if ends then
    let after ← { s with place := gap.after, keyAllowed := false }.toToken?
    s.afterScalar? after true (.text (String.ofList text))
  else none

/-! ### Tokens -/

/-- Reads the mark of a document. -/
def documentMark? (s : Scan) (isEnd : Bool) : Option (List Token × Scan) := do
  let (s, tokens) := s.leaveTo (-1)
  let s := { s with place := s.place.skip 3, keyAllowed := false }
  if 0 < s.depth then none
  else if isEnd then
    let gap ← s.place.gap?
    if gap.after.endsLine then some (tokens ++ [.documentEnd], { s with place := gap.after })
    else none
  else some (tokens ++ [.documentStart], s)

/-- Reads a hyphen before an item. -/
def item? (s : Scan) : Option (List Token × Scan) :=
  if 0 < s.depth ∨ s.keyAllowed = false then none
  else do
    let (after, gap) ← s.skipMark?
    let (after, tokens) := after.enter s.place.column .beginSequence
    let next := gap.after.rest
    -- a hyphen that begins a further sequence must be indented by spaces
    if gap.tabs && next.head? == some '-' && endsWord (next.drop 1) then none
    else
      let after := if next.head?.any fun c => c == '\n' || isFlow c then after.enterOne else after
      some (tokens ++ [.item], { after with keyAllowed := true })

/-- Reads an opening bracket. -/
def beginList? (s : Scan) : Option (List Token × Scan) :=
  if s.keyRequired ∨ s.depth = maxDepth then none
  else do
    let (after, _) ← s.enterOne.skipMark?
    some ([.beginList], { after with depth := s.depth + 1, keyAllowed := true })

/-- Reads a closing bracket. -/
def endList? (s : Scan) : Option (List Token × Scan) :=
  if s.depth = 0 then none
  else do
    let (after, _) ← s.skipMark?
    some ([.endList], { after with depth := s.depth - 1, keyAllowed := false })

/-- Reads a comma. -/
def comma? (s : Scan) : Option (List Token × Scan) :=
  if s.depth = 0 then none
  else do
    let (after, _) ← s.skipMark?
    some ([.comma], { after with keyAllowed := true })

/-- The characters of the notation that this part of it leaves out, and those that are reserved. -/
def isUnsupported (c : Char) : Bool :=
  ['&', '*', '!', '\x7b', '\x7d', '%', '@', '\x60'].contains c

/-- Reads the token at a place that is not the end of the text. -/
def token? (s : Scan) (c : Char) (rest : List Char) : Option (List Token × Scan) :=
  if s.place.column = 0 ∧ isDocumentMark (c :: rest) then s.documentMark? (c == '.')
  else if (s.place.column : Int) < s.indent then none
  else if c = '[' then s.beginList?
  else if c = ']' then s.endList?
  else if c = ',' then s.comma?
  else if c = '\'' then s.quoted? .single
  else if c = '"' then s.quoted? .double
  else if endsWord rest ∧ c = '-' then s.item?
  -- a colon that no key stands before, and a key with a question mark
  else if endsWord rest ∧ (c = ':' ∨ c = '?') then none
  else if 0 < s.depth ∧ c = ':' ∧ rest.head?.any isFlow then none
  else if isUnsupported c ∨ (s.depth = 0 ∧ (c = '|' ∨ c = '>')) then none
  else s.plain?

/-- Reads the next token, with the ends of the blocks before it. At the end of the text all blocks
end. -/
def step? (s : Scan) : Option (List Token × Option Scan) := do
  let s ← s.toToken?
  match s.place.rest with
  | [] => some ((s.leaveTo (-1)).2, none)
  | c :: rest => do
    let (s, ends) := s.leaveTo s.place.column
    let (tokens, s) ← s.token? c rest
    some (ends ++ tokens, some s)

/-- The tokens that follow. The number bounds the steps; a text has no more of them than characters.
-/
def tokens? : Nat → Scan → Option (List Token)
  | 0, _ => none
  | n + 1, s => do
    match ← s.step? with
    | (tokens, none) => some tokens
    | (tokens, some s) => (s.tokens? n).map (tokens ++ ·)

end Scan

/-- The text up to a character that no text holds, with every line break as one line feed. -/
def normalize : List Char → List Char
  | [] => []
  | '\r' :: '\n' :: cs => '\n' :: normalize cs
  | c :: cs =>
    if c = '\x00' then [] else (if c = '\r' then '\n' else c) :: normalize cs

/-- The tokens of a text. -/
def tokens? (content : String) : Option (List Token) :=
  let cs := normalize content.toList
  Scan.tokens? (cs.length + 1) { place := .start cs }

end FeatureQuery.Yaml
