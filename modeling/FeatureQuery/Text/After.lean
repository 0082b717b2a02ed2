/-!
# Words at the start of a text

`after?` tells what follows a word that a text begins with. It answers exactly when the text is the
word with something after it (`after?_eq_some_iff`).
-/

namespace FeatureQuery.Text

/-- What follows the word at the start of a text, if the text begins with it. -/
def after? : List Char → List Char → Option (List Char)
  | [], cs => some cs
  | _ :: _, [] => none
  | w :: ws, c :: cs => if c = w then after? ws cs else none

theorem after?_eq_some_iff {word cs rest : List Char} :
    after? word cs = some rest ↔ cs = word ++ rest := by
  induction word generalizing cs with
  | nil => simp [after?]
  | cons w ws ih =>
    cases cs with
    | nil => simp [after?]
    | cons c cs => by_cases h : c = w <;> simp [after?, h, ih]

end FeatureQuery.Text
