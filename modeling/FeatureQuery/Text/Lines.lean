/-!
# The lines of a text

A line ends with a line feed. A text without one is a single line, and a text that ends with one has
an empty last line; joining the lines with line feeds gives the text back (`unlines_lines`).
-/

namespace FeatureQuery.Text

/-- The lines of a text. -/
def lines : List Char → List (List Char)
  | [] => [[]]
  | c :: cs =>
    if c = '\n' then [] :: lines cs
    else
      match lines cs with
      | [] => [[c]]
      | line :: rest => (c :: line) :: rest

/-- The text with the given lines. -/
def unlines : List (List Char) → List Char
  | [] => []
  | [line] => line
  | line :: next :: rest => line ++ '\n' :: unlines (next :: rest)

theorem lines_ne_nil (cs : List Char) : lines cs ≠ [] := by
  cases cs with
  | nil => simp [lines]
  | cons c cs =>
    simp only [lines]
    split
    · simp
    · split <;> simp

/-- **Nothing is lost between lines.** -/
theorem unlines_lines (cs : List Char) : unlines (lines cs) = cs := by
  induction cs with
  | nil => rfl
  | cons c cs ih =>
    have hne := lines_ne_nil cs
    generalize hl : lines cs = ls at ih hne
    cases ls with
    | nil => exact absurd rfl hne
    | cons line rest =>
      by_cases h : c = '\n'
      · simp [lines, h, hl, unlines, ih]
      · cases rest with
        | nil => simp_all [lines, unlines]
        | cons next rest => simp_all [lines, unlines]

end FeatureQuery.Text
