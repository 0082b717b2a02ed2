import FeatureQuery.Error
import FeatureQuery.Query.Split

/-!
# Reading a query

A query is split at its first operator of the weakest tier, and so are the operands of `and`, `or`
and `not` in turn; the operands of a condition may hold no operator. Neither `and` nor `or` binds
more strongly than the other: the first one found is the root, so that `a and b or c` joins `a` with
`b or c`. Quotes and parentheses are checked once for the whole text, before anything is split, and
conditions may nest `maxLevels` deep.
-/

namespace FeatureQuery

/-- How many levels a query may have, its conditions included. -/
def maxLevels : Nat := 256

/-- Checks the quotes and parentheses of the text that follows a cursor at the given position. -/
def checkBalanceFrom (k : Cursor) (position : Nat) : List Char → Except Malformed Unit
  | [] =>
    -- a literal that never ends hides all parentheses after it, so it is reported first
    if k.quoting = .inside then .error .unterminatedLiteral
    else if 0 < k.depth then .error .unclosedGroup
    else .ok ()
  | c :: cs =>
    match k.next c with
    | none => .error (.unmatchedClose position)
    | some k => checkBalanceFrom k (position + c.utf8Size) cs

/-- Checks that every literal and every group of a text ends. -/
def checkBalance (cs : List Char) : Except Malformed Unit :=
  checkBalanceFrom Cursor.start 0 cs

/-- Reads an operand of `and`, `or` or `not`, which must be a condition itself. -/
def parseOperand (op : Operator) (parse : List Char → Except Malformed Expr) (cs : List Char) :
    Except Malformed Expr :=
  if cs = [] then .error (.missingOperand op)
  else if (findNextOperator cs).isNone then .error (.notCondition (String.ofList cs))
  else parse cs

/-- Checks that an operand of a condition holds no operator. -/
def checkOperand (op : Operator) (cs : List Char) : Except Malformed Unit :=
  match findNextOperator cs with
  | some extra => .error (.unexpectedOperator extra.operator (String.ofList cs) op)
  | none => .ok ()

/-- The operands of a condition: both must be given, and neither may hold an operator. -/
def leafOperands (op : Operator) (left right : List Char) : Except Malformed (String × String) :=
  if left = [] then .error (.missingField op)
  else if right = [] then .error (.missingValue op)
  else do
    checkOperand op left
    checkOperand op right
    .ok (String.ofList left, String.ofList right)

/-- Reads a condition that may have the given number of levels. -/
def parseCondition : Nat → List Char → Except Malformed Expr
  | 0, _ => .error .tooDeep
  | levels + 1, cs =>
    match findNextOperator cs with
    | none => .error (.noOperator (String.ofList cs))
    | some s =>
      let left := stripWrapping s.before
      let right := stripWrapping s.after
      match s.operator with
      | .join connective => do
        let first ← parseOperand s.operator (parseCondition levels) left
        let second ← parseOperand s.operator (parseCondition levels) right
        .ok (.join connective [first, second])
      | .not =>
        if left ≠ [] then .error (.unexpectedBeforeNot (String.ofList left))
        else do
          let operand ← parseOperand s.operator (parseCondition levels) right
          .ok (.not operand)
      | .like => do
        let (field, pattern) ← leafOperands s.operator left right
        .ok (.like field pattern)
      | .compare op => do
        let (field, value) ← leafOperands s.operator left right
        .ok (.compare op field value)

/-- Reads a query from its characters. -/
def parseChars (cs : List Char) : Except Malformed Expr := do
  checkBalance cs
  let body := stripWrapping cs
  if body = [] then .error .empty else parseCondition maxLevels body

/-- Reads a query. What is wrong with the text is reported with the whole text. -/
def parse (query : String) : Except FilterError Expr :=
  (parseChars query.toList).mapError (.malformed query)

end FeatureQuery
