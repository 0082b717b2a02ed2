import FeatureQuery.Number.Format
import FeatureQuery.Predicate.Mode
import FeatureQuery.Query.Operator
import FeatureQuery.Text.Digits

/-!
# What can be wrong with a filter

Each way in which a filter is refused is a cause of its own, and `FilterError.message` words it.
-/

namespace FeatureQuery

/-- Why a text is no query. -/
inductive Malformed where
  /-- A quote opens a literal that never ends. -/
  | unterminatedLiteral
  /-- The parenthesis at this position, in bytes, closes nothing. -/
  | unmatchedClose (position : Nat)
  /-- A parenthesis is never closed. -/
  | unclosedGroup
  /-- There is nothing but blanks and parentheses. -/
  | empty
  /-- Conditions nest more deeply than a query may. -/
  | tooDeep
  /-- The text has no operator. -/
  | noOperator (text : String)
  /-- An operator that joins conditions lacks one. -/
  | missingOperand (op : Operator)
  /-- What an operator joins is no condition. -/
  | notCondition (text : String)
  /-- Something stands before `not`. -/
  | unexpectedBeforeNot (text : String)
  /-- Nothing stands before the operator of a condition. -/
  | missingField (op : Operator)
  /-- Nothing stands after the operator of a condition. -/
  | missingValue (op : Operator)
  /-- An operand of a condition has an operator of its own. -/
  | unexpectedOperator (extra : Operator) (operand : String) (op : Operator)
  deriving DecidableEq

/-- The cause in words. -/
def Malformed.message : Malformed → String
  | .unterminatedLiteral => "unterminated quoted literal"
  | .unmatchedClose position => "unmatched ')' at position " ++ Text.ofNat position
  | .unclosedGroup => "unclosed '('"
  | .empty => "query is empty"
  | .tooDeep => "query nests too deeply"
  | .noOperator text => "no operator in '" ++ text ++ "'"
  | .missingOperand op => "missing operand for '" ++ op.text ++ "'"
  | .notCondition text => "'" ++ text ++ "' is not a condition"
  | .unexpectedBeforeNot text => "unexpected '" ++ text ++ "' before 'not'"
  | .missingField op => "missing field before '" ++ op.text ++ "'"
  | .missingValue op => "missing value after '" ++ op.text ++ "'"
  | .unexpectedOperator extra operand op =>
    "unexpected '" ++ extra.text ++ "' in operand '" ++ operand ++ "' of '" ++ op.text ++ "'"

/-- Why a value cannot be ordered against a literal. -/
inductive Mismatch where
  /-- One of the numbers is no number. -/
  | unordered (actual expected : Double)
  /-- The value is a number and the literal is not. -/
  | numberAgainstText (actual : Double) (text : String)
  deriving DecidableEq

/-- The mismatch in words. -/
def Mismatch.message : Mismatch → String
  | .unordered actual expected =>
    actual.plainText ++ " cannot be ordered against " ++ expected.plainText
  | .numberAgainstText actual text =>
    "number " ++ actual.plainText ++ " compared with text '" ++ text ++ "'"

/-- Why a filter is refused, or a saved query cannot be kept or found. -/
inductive FilterError where
  /-- The text is no query. -/
  | malformed (query : String) (cause : Malformed)
  /-- A condition names a field that no record has. -/
  | unknownField (field : String)
  /-- The mode needs an active filter and there is none. -/
  | noPreviousFilter (mode : Mode)
  /-- An ordering comparison met a value that it cannot order. -/
  | typeMismatch (field : String) (detail : Mismatch)
  /-- The query has only blanks. -/
  | emptyQuery
  /-- No layer has this name. -/
  | unknownLayer (layer : String)
  /-- The active filter is on another layer. -/
  | layerMismatch (active requested : String)
  /-- No saved query has this index. -/
  | noSuchSavedQuery (index : Nat)
  /-- No filter is active that could be saved. -/
  | nothingToSave
  deriving DecidableEq

/-- The error in words. -/
def FilterError.message : FilterError → String
  | .malformed query cause => "malformed query '" ++ query ++ "': " ++ cause.message
  | .unknownField field => "unknown field '" ++ field ++ "'"
  | .noPreviousFilter mode =>
    "combination mode '" ++ mode.name ++ "' requires a previous filter"
  | .typeMismatch field detail => "type mismatch on field '" ++ field ++ "': " ++ detail.message
  | .emptyQuery => "query is empty"
  | .unknownLayer layer => "unknown layer '" ++ layer ++ "'"
  | .layerMismatch active requested =>
    "cannot combine a filter on layer '" ++ requested ++
      "' with the active filter on layer '" ++ active ++ "'"
  | .noSuchSavedQuery index => "no saved query at index " ++ Text.ofNat index
  | .nothingToSave => "there is no applied query to save"

end FeatureQuery
