import FeatureQuery.Config.Yaml.Fold
import FeatureQuery.Config.Yaml.Place
import FeatureQuery.Json.Escape

/-!
# Quoted scalars

A quoted scalar stands between single or double quotes. Between single quotes a quote is written
twice; between double quotes a backslash begins an escape, and one at the end of a line joins it
with the next. The lines are folded, also before the closing quote, and must be indented as far as
what the scalar belongs to. `readQuoted?` reads the scalar behind its opening quote.
-/

namespace FeatureQuery.Yaml

/-- The marks around a quoted scalar. -/
inductive Quotes where
  /-- Single quotes. -/
  | single
  /-- Double quotes. -/
  | double
  deriving DecidableEq

/-- The quote. -/
def Quotes.char : Quotes → Char
  | .single => '\''
  | .double => '"'

/-- A character that stands after a backslash. -/
def escaped? (c : Char) : Option Char :=
  [('0', 0x0), ('a', 0x7), ('b', 0x8), ('t', 0x9), ('\t', 0x9), ('n', 0xA), ('v', 0xB), ('f', 0xC),
    ('r', 0xD), ('e', 0x1B), (' ', 0x20), ('"', 0x22), ('/', 0x2F), ('\\', 0x5C), ('N', 0x85),
    ('_', 0xA0), ('L', 0x2028), ('P', 0x2029)].lookup c |>.map Char.ofNat

/-- The character that a text begins with as so many hexadecimal digits. -/
def hexChar? (count : Nat) (cs : List Char) : Option Char := do
  let n ← (cs.take count).foldlM (fun (n : Nat) c => (Json.hexValue? c).map (n * 16 + ·)) 0
  if cs.length < count then none
  else if n < 0xD800 ∨ (0xDFFF < n ∧ n < 0x110000) then some (Char.ofNat n)
  else none

/-- A part of a word within a quoted scalar. -/
inductive QuotedPart where
  /-- The closing quote. -/
  | close (after : List Char)
  /-- A character, and how many characters write it. -/
  | char (c : Char) (width : Nat)
  /-- A line break with a backslash before it. -/
  | join

/-- The next part of a text that begins with neither a blank nor a line break. -/
def quotedPart? : Quotes → List Char → Option QuotedPart
  | .single, '\'' :: '\'' :: _ => some (.char '\'' 2)
  | .single, '\'' :: cs => some (.close cs)
  | .double, '"' :: cs => some (.close cs)
  | .double, '\\' :: '\n' :: _ => some .join
  | .double, '\\' :: 'x' :: cs => (hexChar? 2 cs).map (.char · 4)
  | .double, '\\' :: 'u' :: cs => (hexChar? 4 cs).map (.char · 6)
  | .double, '\\' :: 'U' :: cs => (hexChar? 8 cs).map (.char · 10)
  | .double, '\\' :: c :: _ => (escaped? c).map (.char · 2)
  | _, c :: _ => some (.char c 1)
  | _, [] => none

/-- The rest of a quoted scalar, and the place behind its closing quote. `fold` is what stands
before the next word, if the last word has ended. -/
def readQuoted? (quotes : Quotes) (indent : Int) (fold : Option Fold) (rest : List Char)
    (line column : Nat) : Option (List Char × Place) :=
  match rest with
  | [] => none
  | c :: cs =>
    if c = '\n' then readQuoted? quotes indent (breakAfter fold) cs (line + 1) 0
    else if isGap c then
      if fold.any Fold.isBroken = true ∧ c = '\t' ∧ (column : Int) < indent then none
      else readQuoted? quotes indent (blankAfter fold c) cs line (column + 1)
    else if fold.isSome = true ∧
        ((column = 0 ∧ isDocumentMark (c :: cs) = true) ∨ (column : Int) < indent) then
      none
    else
      let before := (fold.map Fold.text).getD []
      match quotedPart? quotes (c :: cs) with
      | none => none
      | some (.close after) => some (before, ⟨after, line, column + 1, false⟩)
      | some (.char d width) =>
        (readQuoted? quotes indent none (cs.drop (width - 1)) line (column + width)).map
          fun (text, after) => (before ++ d :: text, after)
      | some .join =>
        let next := cs.drop 1
        -- a quote that closes the scalar at the start of the line need not be indented
        if next.head? = some quotes.char then some (before, ⟨next.drop 1, line + 1, 1, false⟩)
        else
          (readQuoted? quotes indent (some (.joined 0)) next (line + 1) 0).map
            fun (text, after) => (before ++ text, after)
termination_by rest.length
decreasing_by all_goals simp; try omega

end FeatureQuery.Yaml
