import FeatureQuery.Number.Decimal

/-!
# Numbers with an exponent

A number may be written with digits, a point among them, and a power of ten after the letter `e`.
`Scientific` keeps the parts, so that a format can ask how a number was written, and
`Scientific.toDecimal` is the number they denote. `Scientific.read?` reads the freest form: a sign
may stand in front, and digits are needed on one side of the point only.
-/

namespace FeatureQuery

/-- The parts of a number with an exponent. -/
structure Scientific where
  /-- Whether it begins with a minus sign. -/
  negative : Bool
  /-- The digits before the point. -/
  whole : List Char
  /-- The digits after the point. -/
  fraction : List Char
  /-- The exponent, if one is written. -/
  exponent : Option Int
  deriving DecidableEq

namespace Scientific

/-- The number without its sign. -/
def toDecimal (s : Scientific) : Decimal where
  digits := Nat.ofDigitChars 10 (s.whole ++ s.fraction) 0
  exponent := s.exponent.getD 0 - s.fraction.length

/-- The double nearest to the number. -/
def toDouble (s : Scientific) : Double := Double.ofDecimal s.negative s.toDecimal

/-! ### Reading the parts -/

/-- One digit or more, and what follows. -/
def readDigits? (cs : List Char) : Option (List Char × List Char) :=
  if cs.takeWhile Char.isDigit = [] then none
  else some (cs.takeWhile Char.isDigit, cs.dropWhile Char.isDigit)

/-- The exponent with its sign, if there is one. -/
def readExponent? : List Char → Option (Option Int × List Char)
  | [] => some (none, [])
  | c :: cs =>
    if c = 'e' ∨ c = 'E' then
      match cs with
      | '-' :: rest => (readDigits? rest).map fun (ds, rest) =>
          (some (-(Nat.ofDigitChars 10 ds 0 : Int)), rest)
      | '+' :: rest => (readDigits? rest).map fun (ds, rest) =>
          (some (Nat.ofDigitChars 10 ds 0 : Int), rest)
      | rest => (readDigits? rest).map fun (ds, rest) =>
          (some (Nat.ofDigitChars 10 ds 0 : Int), rest)
    else
      some (none, c :: cs)

/-- The number without its sign that makes up the whole text. -/
def readUnsigned? (negative : Bool) (cs : List Char) : Option Scientific := do
  let whole := cs.takeWhile Char.isDigit
  let (fraction, rest) := match cs.dropWhile Char.isDigit with
    | '.' :: rest => (rest.takeWhile Char.isDigit, rest.dropWhile Char.isDigit)
    | rest => ([], rest)
  let (exponent, rest) ← readExponent? rest
  if whole ++ fraction ≠ [] ∧ rest = [] then some { negative, whole, fraction, exponent } else none

/-- The number that makes up the whole text, after a sign if there is one. -/
def read? : List Char → Option Scientific
  | '-' :: rest => readUnsigned? true rest
  | '+' :: rest => readUnsigned? false rest
  | cs => readUnsigned? false cs

/-! ### What is read gets shorter -/

theorem length_lt_of_readDigits? {cs ds rest : List Char}
    (h : readDigits? cs = some (ds, rest)) : rest.length < cs.length := by
  unfold readDigits? at h
  split at h
  · simp at h
  · rename_i hne
    simp only [Option.some.injEq, Prod.mk.injEq] at h
    obtain ⟨rfl, rfl⟩ := h
    have hsplit := congrArg List.length
      (List.takeWhile_append_dropWhile (p := Char.isDigit) (l := cs))
    have := List.length_pos_iff.2 hne
    simp only [List.length_append] at hsplit
    omega

theorem length_le_of_readExponent? {cs rest : List Char} {e : Option Int}
    (h : readExponent? cs = some (e, rest)) : rest.length ≤ cs.length := by
  unfold readExponent? at h
  split at h
  · simp only [Option.some.injEq, Prod.mk.injEq] at h
    obtain ⟨_, rfl⟩ := h
    exact Nat.le_refl _
  · split at h
    · split at h <;>
      · obtain ⟨⟨ds, mid⟩, hd, heq⟩ := Option.map_eq_some_iff.1 h
        simp only [Prod.mk.injEq] at heq
        obtain ⟨_, rfl⟩ := heq
        have := length_lt_of_readDigits? hd
        simp only [List.length_cons]
        omega
    · simp only [Option.some.injEq, Prod.mk.injEq] at h
      obtain ⟨_, rfl⟩ := h
      exact Nat.le_refl _

end Scientific

end FeatureQuery
