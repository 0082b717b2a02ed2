import FeatureQuery.Record.Basic
import FeatureQuery.Text.Blank
import FeatureQuery.Text.Digits
import FeatureQuery.Text.Lines

/-!
# Loading records

Records come from a text that is one GeoJSON document, or else from its lines, each a document of
its own. Blank lines do not count. A document that is a geometry alone has no attributes and is
refused.
-/

namespace FeatureQuery

/-- Why a text holds no records. -/
inductive LoadError where
  /-- The line with this number, counted from one, is no document. -/
  | invalidLine (number : Nat)
  /-- A document is a geometry without a feature. -/
  | bareGeometry
  deriving DecidableEq

/-- The error in words. -/
def LoadError.message : LoadError → String
  | .invalidLine number => "Input: Invalid GeoJSON on line " ++ Text.ofNat number
  | .bareGeometry => "Input: Bare geometries carry no attributes; expected features"

namespace Record

/-- The records of a document. -/
def ofDocument : Document → Except LoadError (List Record)
  | .collection features => .ok (features.map ofFeature)
  | .feature f => .ok [ofFeature f]
  | .geometry _ => .error .bareGeometry

/-- The records of one line; a blank line has none. -/
def loadLine (number : Nat) (line : List Char) : Except LoadError (List Record) :=
  let body := Text.trim line
  if body = [] then .ok []
  else
    match Document.read? (String.ofList body) with
    | some document => ofDocument document
    | none => .error (.invalidLine number)

/-- The records of lines that are numbered from the given number on. -/
def loadLines (number : Nat) : List (List Char) → Except LoadError (List Record)
  | [] => .ok []
  | line :: rest => do
    let first ← loadLine number line
    let others ← loadLines (number + 1) rest
    .ok (first ++ others)

/-- The records of a text. -/
def load (content : String) : Except LoadError (List Record) :=
  match Document.read? content with
  | some document => ofDocument document
  -- a text that is no document as a whole may still be one on each line
  | none => loadLines 1 (Text.lines content.toList)

end Record

end FeatureQuery
