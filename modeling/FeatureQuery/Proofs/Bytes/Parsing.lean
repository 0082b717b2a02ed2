import FeatureQuery.Proofs.Bytes.Operators

/-!
# Reading a query by bytes

The same reading as `parse`, with every piece of a text cut out by its positions and every loop and
recursion made to come nearer to its end. What is wrong with a query and what goes wrong in reading
it are kept apart: a reading (`Reading`) may be without faults (`Reading.of`) and still refuse the
query.

No fault occurs. Parentheses around a text are taken away at boundaries (`stripWrapping_eq`), both
sides of an operator are shorter than the text (`length_side_lt`), and a query is read as by `parse`
(`parse_eq`).
-/

namespace FeatureQuery.Bytes

open Text

/-! ### Wrapping -/

/-- Takes away the parentheses that enclose all of a text, and the blanks inside them. -/
def unwrap (cs : List Char) : Except Fault (List Char) :=
  if cs.head? = some '(' then do
    let close? ← closingParen cs 0
    let last ← minus (byteLength cs) 1
    if close? = some last then
      let inside ← between cs 1 last
      if _h : (trim inside).length < cs.length then unwrap (trim inside)
      else .error .standstill
    else return cs
  else return cs
termination_by cs.length

/-- The text without the blanks around it, and without the parentheses that enclose all of it. -/
def stripWrapping (cs : List Char) : Except Fault (List Char) := unwrap (trim cs)

section Unwrap

variable {rest inside after : List Char}

theorem closingParen_cons (rest : List Char) :
    closingParen ('(' :: rest) 0 =
      .ok ((closeGroup .inGroup rest).map fun (inside, _) => byteLength inside + 1) := by
  have hlength (inside : List Char) : byteLength ('(' :: inside) = byteLength inside + 1 := by
    rw [byteLength_cons, Nat.add_comm]
    rfl
  have h := closingParen_eq [] rest
  simp only [List.nil_append, hlength] at h
  exact h

theorem minus_byteLength_cons (rest : List Char) :
    minus (byteLength ('(' :: rest)) 1 = .ok (byteLength rest) := by
  have hlength : byteLength ('(' :: rest) = 1 + byteLength rest := byteLength_cons '(' rest
  rw [minus_of_le (by omega), hlength, Nat.add_sub_cancel_left]

theorem byteLength_of_closeGroup (h : closeGroup .inGroup rest = some (inside, after)) :
    byteLength rest = byteLength inside + 1 + byteLength after := by
  rw [eq_append_of_closeGroup h, byteLength_append, byteLength_cons, Nat.add_assoc]
  rfl

theorem unwrap_group (h : closeGroup .inGroup rest = some (inside, [])) :
    unwrap ('(' :: rest) = unwrap (trim inside) := by
  have hrest := eq_append_of_closeGroup h
  have hwhole : some (byteLength inside + 1) = some (byteLength rest) :=
    congrArg some (byteLength_of_closeGroup h).symm
  have hbetween : between ('(' :: rest) 1 (byteLength rest) = .ok inside := by
    have hpiece := between_append ['('] inside [')']
    rw [byteLength_of_closeGroup h, hrest]
    rwa [byteLength_append, Nat.add_comm] at hpiece
  have hlt : (trim inside).length < ('(' :: rest).length := by
    have htrim := length_trim_le inside
    rw [hrest, List.length_cons, List.length_append]
    omega
  rw [unwrap, if_pos List.head?_cons, closingParen_cons, ok_bind, minus_byteLength_cons, ok_bind, h,
    Option.map_some, if_pos hwhole, hbetween, ok_bind, dif_pos hlt]

theorem unwrap_of_not_isGroup {cs : List Char} (h : ∀ inside, ¬ IsGroup cs inside) :
    unwrap cs = .ok cs := by
  rw [unwrap]
  split
  · rename_i hopen
    obtain ⟨rest, rfl⟩ := List.head?_eq_some_iff.mp hopen
    rw [closingParen_cons, ok_bind, minus_byteLength_cons, ok_bind, if_neg]
    · rfl
    · -- the group would be the whole text
      intro hwhole
      obtain ⟨⟨inside, after⟩, hclose, hlength⟩ := Option.map_eq_some_iff.mp hwhole
      have hrest := byteLength_of_closeGroup hclose
      cases after with
      | nil => exact h inside ⟨rest, rfl, hclose⟩
      | cons c after =>
        have hpos := c.utf8Size_pos
        simp only [byteLength_cons] at hlength hrest
        omega
  · rfl

end Unwrap

/-- **Parentheses are taken away** at boundaries. -/
theorem stripWrapping_eq (cs : List Char) :
    stripWrapping cs = .ok (FeatureQuery.stripWrapping cs) := by
  rw [stripWrapping]
  induction hn : cs.length using Nat.strongRecOn generalizing cs with
  | ind n ih =>
    subst hn
    by_cases hg : ∃ inside, IsGroup (trim cs) inside
    · obtain ⟨inside, hg⟩ := hg
      have hlt := hg.length_lt
      have htrim := length_trim_le cs
      rw [stripWrapping_of_isGroup hg, ← ih inside.length (by omega) inside rfl]
      obtain ⟨rest, heq, hclose⟩ := hg
      rw [heq, unwrap_group hclose]
    · have hng := not_exists.mp hg
      rw [stripWrapping_of_not_isGroup hng, unwrap_of_not_isGroup hng]

/-! ### Readings -/

/-- What reading a text comes to: what is wrong with the text, or what it denotes. -/
abbrev Reading (α : Type) := ExceptT Malformed (Except Fault) α

/-- A reading without faults. -/
def Reading.of {α : Type} (result : Except Malformed α) : Reading α := ExceptT.mk (.ok result)

theorem lift_ok_bind {α β : Type} (a : α) (f : α → Reading β) :
    ((liftM (Except.ok a : Except Fault α) : Reading α) >>= f) = f a := rfl

/-- Reads an operand of `and`, `or` or `not`, which must be a condition itself. -/
def parseOperand (op : Operator) (parse : List Char → Reading Expr) (cs : List Char) :
    Reading Expr := do
  if cs = [] then throw (.missingOperand op)
  else if (← findNextOperator cs).isNone then throw (.notCondition (String.ofList cs))
  else parse cs

/-- Checks that an operand of a condition holds no operator. -/
def checkOperand (op : Operator) (cs : List Char) : Reading Unit := do
  match ← findNextOperator cs with
  | some extra => throw (.unexpectedOperator extra.operator (String.ofList cs) op)
  | none => return ()

/-- The operands of a condition: both must be given, and neither may hold an operator. -/
def leafOperands (op : Operator) (left right : List Char) : Reading (String × String) := do
  if left = [] then throw (.missingField op)
  else if right = [] then throw (.missingValue op)
  else
    checkOperand op left
    checkOperand op right
    return (String.ofList left, String.ofList right)

/-- Reads a side of an operator, which must be shorter than the text. -/
def onShorter (cs : List Char) (parse : (side : List Char) → side.length < cs.length → Reading Expr)
    (side : List Char) : Reading Expr :=
  if h : side.length < cs.length then parse side h else throwThe Fault .standstill

/-- Reads a condition at a depth. -/
def parseCondition (depth : Nat) (cs : List Char) : Reading Expr :=
  if maxLevels ≤ depth then throw .tooDeep
  else do
    match ← findNextOperator cs with
    | none => throw (.noOperator (String.ofList cs))
    | some found =>
      let left ← stripWrapping (← upTo cs found.start)
      let right ← stripWrapping (← onward cs found.stop)
      let parseSide := onShorter cs fun side _ => parseCondition (depth + 1) side
      match found.operator with
      | .join connective =>
        let first ← parseOperand found.operator parseSide left
        let second ← parseOperand found.operator parseSide right
        return .join connective [first, second]
      | .not =>
        if left ≠ [] then throw (.unexpectedBeforeNot (String.ofList left))
        else
          let operand ← parseOperand found.operator parseSide right
          return .not operand
      | .like =>
        let (field, pattern) ← leafOperands found.operator left right
        return .like field pattern
      | .compare op =>
        let (field, value) ← leafOperands found.operator left right
        return .compare op field value
termination_by cs.length

/-- Reads a query from its characters. -/
def parseChars (cs : List Char) : Reading Expr := do
  ExceptT.mk (checkBalance cs)
  let body ← stripWrapping cs
  if body = [] then throw .empty else parseCondition 0 body

/-- Reads a query. What is wrong with the text is reported with the whole text. -/
def parse (query : String) : Except Fault (Except FilterError Expr) :=
  (parseChars query.toList).run.map fun result => result.mapError (.malformed query)

theorem parseOperand_eq {op : Operator} {parse : List Char → Reading Expr}
    {parse' : List Char → Except Malformed Expr} {cs : List Char}
    (h : parse cs = .of (parse' cs)) :
    parseOperand op parse cs = .of (FeatureQuery.parseOperand op parse' cs) := by
  rw [parseOperand, FeatureQuery.parseOperand, findNextOperator_eq]
  split
  · rfl
  · rw [lift_ok_bind, Option.isNone_map]
    split
    · rfl
    · exact h

theorem checkOperand_eq (op : Operator) (cs : List Char) :
    checkOperand op cs = .of (FeatureQuery.checkOperand op cs) := by
  rw [checkOperand, FeatureQuery.checkOperand, findNextOperator_eq, lift_ok_bind]
  cases FeatureQuery.findNextOperator cs <;> rfl

theorem leafOperands_eq (op : Operator) (left right : List Char) :
    leafOperands op left right = .of (FeatureQuery.leafOperands op left right) := by
  rw [leafOperands, FeatureQuery.leafOperands]
  split
  · rfl
  · split
    · rfl
    · rw [checkOperand_eq, checkOperand_eq]
      cases FeatureQuery.checkOperand op left with
      | error e => rfl
      | ok _ => cases FeatureQuery.checkOperand op right <;> rfl

/-- **Both sides of an operator** are shorter than the text. -/
theorem length_side_lt {cs : List Char} {s : Split}
    (h : FeatureQuery.findNextOperator cs = some s) :
    (FeatureQuery.stripWrapping s.before).length < cs.length ∧
      (FeatureQuery.stripWrapping s.after).length < cs.length := by
  have hwhole := congrArg List.length (eq_append_of_findNextOperator h)
  have hop := List.length_pos_iff.mpr s.operator.text_ne_nil
  have hbefore := length_stripWrapping_le s.before
  have hafter := length_stripWrapping_le s.after
  simp only [List.length_append] at hwhole
  omega

/-- The two sides of an operator are cut off at boundaries. -/
theorem cut_at_operator {cs : List Char} {s : Split}
    (h : FeatureQuery.findNextOperator cs = some s) :
    upTo cs s.start = .ok s.before ∧ onward cs s.stop = .ok s.after := by
  have hbefore := upTo_append s.before (s.operator.text.toList ++ s.after)
  have hafter := onward_append (s.before ++ s.operator.text.toList) s.after
  rw [List.append_assoc, byteLength_append] at hafter
  rw [eq_append_of_findNextOperator h]
  exact ⟨hbefore, hafter⟩

/-- **A condition is read** at each depth as with the levels that are left. -/
theorem parseCondition_eq {levels depth : Nat} (hlevels : levels + depth = maxLevels)
    (cs : List Char) :
    parseCondition depth cs = .of (FeatureQuery.parseCondition levels cs) := by
  induction levels generalizing depth cs with
  | zero =>
    rw [parseCondition, if_pos (by omega), FeatureQuery.parseCondition]
    rfl
  | succ levels ih =>
    rw [parseCondition, if_neg (by omega), FeatureQuery.parseCondition, findNextOperator_eq,
      lift_ok_bind]
    cases hfind : FeatureQuery.findNextOperator cs with
    | none => rfl
    | some s =>
      have hcut := cut_at_operator hfind
      obtain ⟨hleft, hright⟩ := length_side_lt hfind
      have hside {side : List Char} (hlt : side.length < cs.length) :
          onShorter cs (fun side _ => parseCondition (depth + 1) side) side =
            .of (FeatureQuery.parseCondition levels side) := by
        rw [onShorter, dif_pos hlt]
        exact ih (by omega) side
      simp only [Option.map_some, Found.ofSplit, hcut.1, hcut.2, lift_ok_bind, stripWrapping_eq]
      cases s.operator with
      | join connective =>
        simp only [parseOperand_eq (hside hleft), parseOperand_eq (hside hright)]
        cases FeatureQuery.parseOperand (.join connective) (FeatureQuery.parseCondition levels)
            (FeatureQuery.stripWrapping s.before) with
        | error e => rfl
        | ok first =>
          cases FeatureQuery.parseOperand (.join connective) (FeatureQuery.parseCondition levels)
              (FeatureQuery.stripWrapping s.after) <;> rfl
      | not =>
        simp only [parseOperand_eq (hside hright)]
        split
        · rfl
        · cases FeatureQuery.parseOperand .not (FeatureQuery.parseCondition levels)
              (FeatureQuery.stripWrapping s.after) <;> rfl
      | like =>
        simp only [leafOperands_eq]
        cases FeatureQuery.leafOperands .like (FeatureQuery.stripWrapping s.before)
            (FeatureQuery.stripWrapping s.after) <;> rfl
      | compare op =>
        simp only [leafOperands_eq]
        cases FeatureQuery.leafOperands (.compare op) (FeatureQuery.stripWrapping s.before)
            (FeatureQuery.stripWrapping s.after) <;> rfl

theorem parseChars_eq (cs : List Char) : parseChars cs = .of (FeatureQuery.parseChars cs) := by
  rw [parseChars, FeatureQuery.parseChars, checkBalance_eq, stripWrapping_eq]
  cases FeatureQuery.checkBalance cs with
  | error e => rfl
  | ok _ =>
    have hread : (if FeatureQuery.stripWrapping cs = [] then throw .empty
        else parseCondition 0 (FeatureQuery.stripWrapping cs)) =
        Reading.of (if FeatureQuery.stripWrapping cs = [] then .error .empty
          else FeatureQuery.parseCondition maxLevels (FeatureQuery.stripWrapping cs)) := by
      split
      · rfl
      · exact parseCondition_eq rfl _
    exact hread

/-- **A query is read** without faults, and as by `parse`. -/
theorem parse_eq (query : String) : parse query = .ok (FeatureQuery.parse query) := by
  rw [parse, parseChars_eq]
  rfl

end FeatureQuery.Bytes
