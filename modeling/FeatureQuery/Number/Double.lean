/-!
# Double-precision numbers

A double is a finite number, an infinity, or no number at all. The magnitudes of the finite doubles
are the multiples `m * 2 ^ k` of the smallest positive one, `2 ^ (-1074)`, with `m` below `2 ^ 53`.
A finite double is kept as that multiple, so that comparing two doubles is comparing two whole
numbers: `Double.compare?` orders all doubles but the one that is no number, and takes the two zeros
for equal.

`Magnitude.ofRatio?` gives the magnitude nearest to a quotient of whole numbers. It rounds to the
nearest multiple of the distance between neighbouring doubles, and a half to the even one
(`roundQuotient_close`); the result is always a double (`isDouble_roundUnits`) or too large for one.
Products and quotients of magnitudes are rounded in the same way.
-/

namespace FeatureQuery

/-! ### The finite doubles -/

/-- How many units of `2 ^ (-1074)` make up the number one. -/
def unitsPerOne : Nat := 1 <<< 1074

/-- The first power of two beyond the finite doubles, in units of `2 ^ (-1074)`. -/
def doubleLimit : Nat := 1 <<< 2098

/-- The multiples of `2 ^ (-1074)` that are magnitudes of doubles. -/
def IsDouble (units : Nat) : Prop :=
  (∃ m k, m < 1 <<< 53 ∧ units = m <<< k) ∧ units < doubleLimit

/-- The magnitude of a finite double, in units of `2 ^ (-1074)`. -/
structure Magnitude where
  /-- How often the unit is taken. -/
  units : Nat
  /-- At most 53 binary digits are significant. -/
  isDouble : IsDouble units
  deriving DecidableEq

/-- A number in double precision. -/
inductive Double where
  /-- A finite number; zero has two signs. -/
  | finite (negative : Bool) (magnitude : Magnitude)
  /-- A number beyond all finite ones. -/
  | infinite (negative : Bool)
  /-- No number. -/
  | nan
  deriving DecidableEq

instance : Inhabited Double := ⟨.nan⟩

/-! ### Rounding -/

/-- The quotient rounded to the nearest whole number; a half goes to the even one. -/
def roundQuotient (num den : Nat) : Nat :=
  let q := num / den
  let twice := 2 * (num % den)
  if twice < den then q else if den < twice then q + 1 else q + q % 2

/-- The binary exponent of the distance between the doubles around so many units: one unit up to 53
binary digits, and twice as far with each further digit. -/
def gapExponent (units : Nat) : Nat := units.log2 - 52

/-- The quotient in units, rounded to the distance between the doubles around it. -/
def roundUnits (num den : Nat) : Nat :=
  let k := gapExponent (num / den)
  roundQuotient num (den <<< k) <<< k

theorem roundQuotient_le (num den : Nat) : roundQuotient num den ≤ num / den + 1 := by
  simp only [roundQuotient]
  split
  · omega
  · split
    · omega
    · have := Nat.mod_lt (num / den) (by decide : 0 < 2)
      omega

/-- **Rounding is to within one half.** -/
theorem roundQuotient_close (num : Nat) {den : Nat} (h : 0 < den) :
    2 * num ≤ (2 * roundQuotient num den + 1) * den ∧
      (2 * roundQuotient num den) * den ≤ 2 * num + den := by
  have hdiv := Nat.div_add_mod num den
  have hlt := Nat.mod_lt num h
  have hpar : (num / den) % 2 = 0 ∨ (num / den) % 2 = 1 := by omega
  have hmul : den * (num / den) = num / den * den := Nat.mul_comm _ _
  simp only [roundQuotient]
  split
  · constructor <;> simp only [Nat.add_mul, Nat.mul_assoc, Nat.one_mul] <;> omega
  · split
    · constructor <;> simp only [Nat.add_mul, Nat.mul_add, Nat.mul_assoc, Nat.one_mul] <;> omega
    · rcases hpar with hp | hp <;> rw [hp] <;> constructor <;>
        simp only [Nat.add_mul, Nat.mul_add, Nat.mul_assoc, Nat.one_mul, Nat.add_zero] <;> omega

theorem roundQuotient_gap_le (num den : Nat) :
    roundQuotient num (den <<< gapExponent (num / den)) ≤ 1 <<< 53 := by
  refine Nat.le_trans (roundQuotient_le _ _) ?_
  rw [Nat.shiftLeft_eq, Nat.one_shiftLeft, ← Nat.div_div_eq_div_mul]
  refine Nat.succ_le_of_lt (Nat.div_lt_of_lt_mul ?_)
  rw [← Nat.pow_add]
  -- what is left to show: the quotient is below 53 binary digits times the gap
  by_cases h : num / den = 0
  · rw [h]; exact Nat.two_pow_pos _
  · exact (Nat.log2_lt h).1 (by unfold gapExponent; omega)

/-- Rounding to the gap leaves at most 53 significant binary digits. -/
theorem exists_significand_roundUnits (num den : Nat) :
    ∃ m k, m < 1 <<< 53 ∧ roundUnits num den = m <<< k := by
  have hle := roundQuotient_gap_le num den
  generalize hk : gapExponent (num / den) = k at hle
  generalize hr : roundQuotient num (den <<< k) = r at hle
  have hu : roundUnits num den = r <<< k := by simp only [roundUnits, hk, hr]
  by_cases hlt : r < 1 <<< 53
  · exact ⟨r, k, hlt, hu⟩
  -- rounding up has given one binary digit more, a power of two
  · have hr' : r = 1 <<< 53 := Nat.le_antisymm hle (Nat.le_of_not_lt hlt)
    refine ⟨1 <<< 52, k + 1, by decide, ?_⟩
    rw [hu, hr', ← Nat.shiftLeft_add, ← Nat.shiftLeft_add]
    congr 1
    omega

theorem isDouble_roundUnits {num den : Nat} (h : roundUnits num den < doubleLimit) :
    IsDouble (roundUnits num den) := ⟨exists_significand_roundUnits num den, h⟩

namespace Magnitude

/-- The magnitude nearest to a quotient of whole numbers. There is none for a quotient that rounds
beyond the largest finite double. -/
def ofRatio? (num den : Nat) : Option Magnitude :=
  let units := roundUnits (num * unitsPerOne) den
  if h : units < doubleLimit then some ⟨units, isDouble_roundUnits h⟩ else none

/-- The magnitude nearest to the product of two magnitudes. -/
def mul? (a b : Magnitude) : Option Magnitude :=
  ofRatio? (a.units * b.units) (unitsPerOne * unitsPerOne)

/-- The magnitude nearest to the quotient of two magnitudes. -/
def div? (a b : Magnitude) : Option Magnitude := ofRatio? a.units b.units

/-- What is found lies within the finite doubles and is the quotient, rounded. -/
theorem ofRatio?_eq_some_iff {num den : Nat} {m : Magnitude} :
    ofRatio? num den = some m ↔ m.units = roundUnits (num * unitsPerOne) den := by
  simp only [ofRatio?]
  split
  · constructor
    · intro h
      rw [← Option.some.inj h]
    · intro h
      cases m
      simp_all
  · rename_i hlimit
    constructor
    · simp
    · intro h
      exact absurd (h ▸ m.isDouble.2) hlimit

end Magnitude

namespace Double

/-- The finite double of a magnitude, or an infinity if there is none. -/
def ofRounded (negative : Bool) : Option Magnitude → Double
  | some m => .finite negative m
  | none => .infinite negative

/-- The double nearest to a quotient of whole numbers, with the sign applied. A quotient that rounds
beyond the largest finite double is infinite. -/
def ofRatio (negative : Bool) (num den : Nat) : Double :=
  ofRounded negative (Magnitude.ofRatio? num den)

/-- The double nearest to a whole number. -/
def ofInt (n : Int) : Double := ofRatio (n < 0) n.natAbs 1

/-! ### Order -/

/-- Where a double stands among the whole multiples of the unit. The infinities stand just beyond
all finite doubles, the two zeros in one place, and what is no number stands nowhere. -/
def place? : Double → Option Int
  | .finite negative m => some (if negative then -(m.units : Int) else m.units)
  | .infinite negative => some (if negative then -(doubleLimit : Int) else doubleLimit)
  | .nan => none

/-- How two doubles compare; what is no number compares with nothing. -/
def compare? (a b : Double) : Option Ordering :=
  match a.place?, b.place? with
  | some x, some y => some (compare x y)
  | _, _ => none

/-- Numeric equality: the two zeros are equal, and what is no number equals nothing. -/
def equals (a b : Double) : Bool := a.compare? b == some .eq

/-- A double comes from a quotient only as a number. -/
theorem ofRatio_ne_nan (negative : Bool) (num den : Nat) : ofRatio negative num den ≠ .nan := by
  simp only [ofRatio]
  cases Magnitude.ofRatio? num den <;> simp [ofRounded]

end Double

end FeatureQuery
