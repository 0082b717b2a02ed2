import FeatureQuery.Json.Basic
import FeatureQuery.Number.Scientific

/-!
# Numbers in JSON

A number has no leading zeros and needs digits on both sides of its point. One that is written
without a point and an exponent, and fits into 64 bits, is whole. Every other number becomes a
double from the digits that fit into 64 bits, brought to its size by rounded powers of ten
(`Decimal.scale?`), and so may lie next to the nearest double. A number beyond the range of doubles
is refused.
-/

namespace FeatureQuery.Json

open Scientific (readDigits? readExponent? length_lt_of_readDigits? length_le_of_readExponent?)

/-- The digits before the point: a zero alone, or digits that begin with another one. -/
def readWhole? : List Char → Option (List Char × List Char)
  | '0' :: rest => some (['0'], rest)
  | cs => readDigits? cs

/-- The digits after the point, none if there is no point. -/
def readFraction? : List Char → Option (List Char × List Char)
  | '.' :: rest => readDigits? rest
  | cs => some ([], cs)

/-- The digits that fit into 64 bits after those of a number, and the digits from the first on that
does not. -/
def keepDigits : Nat → List Char → Nat × List Char
  | n, [] => (n, [])
  | n, c :: cs =>
    let next := Nat.ofDigitChars 10 [c] n
    if next < UInt64.size then keepDigits next cs else (n, c :: cs)

/-- The number without its sign, to the precision of 64 bits: digits that do not fit are left out,
before the point and after it. -/
def keptDecimal (s : Scientific) : Decimal :=
  let (whole, leftOut) := keepDigits 0 s.whole
  let (digits, unused) := keepDigits whole s.fraction
  { digits
    -- a digit left out before the point raises the power of ten, one kept after the point lowers it
    exponent := s.exponent.getD 0 + leftOut.length - (s.fraction.length - unused.length : Nat) }

/-- The number of the given parts. It is a whole number if it has neither a fraction nor an exponent
and fits into 64 bits; a negative zero is a double, and a number beyond the finite doubles is
refused. -/
def numberOf? (s : Scientific) : Option JsonNumber :=
  let n := Nat.ofDigitChars 10 s.whole 0
  if s.fraction = [] ∧ s.exponent = none ∧ s.negative = false ∧ n < UInt64.size then
    some (.whole n)
  else if s.fraction = [] ∧ s.exponent = none ∧ s.negative = true ∧ 0 < n ∧
      n ≤ UInt64.size / 2 then
    some (.whole (-(n : Int)))
  else
    (keptDecimal s).scale?.map fun m => .double (.finite s.negative m)

/-- A number without its sign, and what follows. -/
def readUnsigned? (negative : Bool) (cs : List Char) : Option (JsonNumber × List Char) := do
  let (whole, cs) ← readWhole? cs
  let (fraction, cs) ← readFraction? cs
  let (exponent, cs) ← readExponent? cs
  let n ← numberOf? { negative, whole, fraction, exponent }
  some (n, cs)

/-- A number, and what follows. -/
def readNumber? : List Char → Option (JsonNumber × List Char)
  | '-' :: rest => readUnsigned? true rest
  | cs => readUnsigned? false cs

/-! ### What is read gets shorter -/

theorem length_lt_of_readWhole? {cs ds rest : List Char}
    (h : readWhole? cs = some (ds, rest)) : rest.length < cs.length := by
  unfold readWhole? at h
  split at h
  · simp only [Option.some.injEq, Prod.mk.injEq] at h
    obtain ⟨_, rfl⟩ := h
    simp
  · exact length_lt_of_readDigits? h

theorem length_le_of_readFraction? {cs ds rest : List Char}
    (h : readFraction? cs = some (ds, rest)) : rest.length ≤ cs.length := by
  unfold readFraction? at h
  split at h
  · have := length_lt_of_readDigits? h
    simp only [List.length_cons]
    omega
  · simp only [Option.some.injEq, Prod.mk.injEq] at h
    obtain ⟨_, rfl⟩ := h
    exact Nat.le_refl _

theorem length_lt_of_readUnsigned? {negative : Bool} {cs rest : List Char} {n : JsonNumber}
    (h : readUnsigned? negative cs = some (n, rest)) : rest.length < cs.length := by
  simp only [readUnsigned?, Option.bind_eq_bind, Option.bind_eq_some_iff, Option.some.injEq,
    Prod.mk.injEq] at h
  obtain ⟨⟨whole, cs1⟩, h1, ⟨fraction, cs2⟩, h2, ⟨e, cs3⟩, h3, n', _, _, rfl⟩ := h
  have h1 : cs1.length < cs.length := length_lt_of_readWhole? h1
  have h2 : cs2.length ≤ cs1.length := length_le_of_readFraction? h2
  have h3 : cs3.length ≤ cs2.length := length_le_of_readExponent? h3
  exact Nat.lt_of_le_of_lt (Nat.le_trans h3 h2) h1

theorem length_lt_of_readNumber? {cs rest : List Char} {n : JsonNumber}
    (h : readNumber? cs = some (n, rest)) : rest.length < cs.length := by
  unfold readNumber? at h
  split at h
  · have := length_lt_of_readUnsigned? h
    simp only [List.length_cons]
    omega
  · exact length_lt_of_readUnsigned? h

end FeatureQuery.Json
