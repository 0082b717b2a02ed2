import FeatureQuery.Predicate.Basic

/-!
# Selecting records

`hits` goes through items in order and gives each one that passes a test, and each failure of the
test in its place; a reader that stops early never sees what comes later. `select` takes all hits
and fails with the first failure. Main statement: a selection looks at the first item and then
selects from the others (`select_cons`).
-/

namespace FeatureQuery

variable {α ε : Type}

/-- The items that pass a test, and the failures of the test, in the order of the items. -/
def hits (test : α → Except ε Bool) (items : List α) : List (Except ε α) :=
  items.filterMap fun a =>
    match test a with
    | .ok true => some (.ok a)
    | .ok false => none
    | .error e => some (.error e)

/-- All the values, or the first failure. -/
def collect : List (Except ε α) → Except ε (List α)
  | [] => .ok []
  | .error e :: _ => .error e
  | .ok a :: rest => (collect rest).map (a :: ·)

/-- The items that pass a test, in order, or the first failure of the test. -/
def select (test : α → Except ε Bool) (items : List α) : Except ε (List α) :=
  collect (hits test items)

theorem select_nil (test : α → Except ε Bool) : select test [] = .ok [] := rfl

/-- A selection looks at the first item, and then selects from the others. -/
theorem select_cons (test : α → Except ε Bool) (a : α) (items : List α) :
    select test (a :: items) =
      match test a with
      | .ok b => (select test items).map fun rest => if b then a :: rest else rest
      | .error e => .error e := by
  unfold select hits
  cases h : test a with
  | error e => simp [h, collect]
  | ok b =>
    cases b
    · simp only [List.filterMap_cons, h]
      generalize collect _ = c
      cases c <;> rfl
    · simp [h, collect]

end FeatureQuery
