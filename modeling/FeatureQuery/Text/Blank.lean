/-!
# Blank characters

Blanks separate the words of a text: they are the characters with the Unicode property White_Space.
`trim` removes them from both ends of a text. What `trimStart` leaves begins with no blank
(`isBlank_head?_trimStart`), what `trimEnd` leaves ends with none (`isBlank_getLast?_trimEnd`), and
only blanks are removed (`takeWhile_append_trimStart`).
-/

namespace FeatureQuery.Text

/-- A character with the Unicode property White_Space. -/
def isBlank (c : Char) : Bool :=
  let n := c.toNat
  (0x9 ≤ n && n ≤ 0xD) || n == 0x20 || n == 0x85 || n == 0xA0 || n == 0x1680 ||
    (0x2000 ≤ n && n ≤ 0x200A) || n == 0x2028 || n == 0x2029 || n == 0x202F || n == 0x205F ||
    n == 0x3000

/-- The text without the blanks it begins with. -/
def trimStart (cs : List Char) : List Char := cs.dropWhile isBlank

/-- The text without the blanks it ends with. -/
def trimEnd (cs : List Char) : List Char := (cs.reverse.dropWhile isBlank).reverse

/-- The text without the blanks at its ends. -/
def trim (cs : List Char) : List Char := trimEnd (trimStart cs)

/-! ### Lengths -/

theorem length_trimStart_le (cs : List Char) : (trimStart cs).length ≤ cs.length :=
  (List.dropWhile_sublist _).length_le

theorem length_trimEnd_le (cs : List Char) : (trimEnd cs).length ≤ cs.length := by
  simpa [trimEnd] using (List.dropWhile_sublist (l := cs.reverse) isBlank).length_le

theorem length_trim_le (cs : List Char) : (trim cs).length ≤ cs.length :=
  Nat.le_trans (length_trimEnd_le _) (length_trimStart_le _)

/-! ### The two ends -/

/-- A text begins with blanks, and what follows them is the trimmed text. -/
theorem takeWhile_append_trimStart (cs : List Char) :
    cs.takeWhile isBlank ++ trimStart cs = cs :=
  List.takeWhile_append_dropWhile

/-- What `trimStart` leaves does not begin with a blank. -/
theorem isBlank_head?_trimStart (cs : List Char) :
    (trimStart cs).head?.any isBlank = false := by
  induction cs with
  | nil => rfl
  | cons c cs ih =>
    by_cases h : isBlank c = true
    · simpa [trimStart, List.dropWhile_cons, h] using ih
    · simp [trimStart, h]

/-- What `trimEnd` leaves does not end with a blank. -/
theorem isBlank_getLast?_trimEnd (cs : List Char) :
    (trimEnd cs).getLast?.any isBlank = false := by
  have h := isBlank_head?_trimStart cs.reverse
  simpa [trimEnd, trimStart, List.getLast?_reverse] using h

end FeatureQuery.Text
