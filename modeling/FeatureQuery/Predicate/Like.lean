/-!
# LIKE patterns

In a pattern `.` stands for any one character and `.*` for any run of characters; every other
character stands for itself, the star included. A text matches when the items of the pattern, one
after the other, use it up. `LikePattern.verdicts` tells for each end piece of a text whether it
matches, from the last item of the pattern to the first, so that matching takes time in proportion
to the length of the pattern times that of the text.
-/

namespace FeatureQuery

/-- What a piece of a pattern stands for. -/
inductive LikeItem where
  /-- Any run of characters. -/
  | anyRun
  /-- Any one character. -/
  | anyChar
  /-- The character itself. -/
  | char (c : Char)
  deriving DecidableEq

/-- A pattern, as its items in order. -/
structure LikePattern where
  /-- The items. -/
  items : List LikeItem
  deriving DecidableEq

namespace LikePattern

/-- Reads the items of a pattern from left to right; a point and a star side by side are one item.
-/
def readItems : List Char → List LikeItem
  | [] => []
  | '.' :: '*' :: cs => .anyRun :: readItems cs
  | c :: cs => (if c = '.' then .anyChar else .char c) :: readItems cs

/-- The pattern that a text denotes. Every text is a pattern. -/
def ofString (s : String) : LikePattern := ⟨readItems s.toList⟩

/-- Puts one item in front: from the verdicts on the end pieces of a text, the longest first, those
with the item as well. -/
def step (text : List Char) : LikeItem → List Bool → List Bool
  -- a run may be empty, or take one character more than a run from the next end piece
  | .anyRun, row => row.foldr (fun b later => (b || later.headD false) :: later) []
  | .anyChar, row => row.tail ++ [false]
  | .char c, row => List.zipWith (fun t b => t == c && b) text row.tail ++ [false]

/-- Whether each end piece of a text, the longest first, matches the items. -/
def verdicts (text : List Char) : List LikeItem → List Bool
  | [] => text.map (fun _ => false) ++ [true]
  | item :: items => step text item (verdicts text items)

/-- Whether the whole text matches the pattern. -/
def isMatch (p : LikePattern) (text : String) : Bool :=
  (verdicts text.toList p.items).headD false

end LikePattern

end FeatureQuery
