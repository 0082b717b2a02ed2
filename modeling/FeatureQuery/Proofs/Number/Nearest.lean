import FeatureQuery.Proofs.Number.Rounding
import Mathlib.Algebra.Order.Field.Rat
import Mathlib.Algebra.Order.AbsoluteValue.Basic
import Mathlib.Data.Nat.Cast.Order.Field
import Mathlib.Tactic.FieldSimp
import Mathlib.Tactic.Linarith
import Mathlib.Tactic.Positivity
import Mathlib.Tactic.Ring

/-!
# The nearest double

A quotient of whole numbers is turned into the double that lies nearest to it (`Rounds`): no finite
double lies nearer, of two that lie equally near it is the one with an even significand, and from
`Double.overflow` on, halfway between the greatest finite double and the next power of two, it is an
infinity (`Double.rounds_ofRatio`).

Nearness is told in multiples of the unit. Rounding gives a multiple of the distance between the
doubles around the quotient, within half that distance. Every other multiple of the distance lies
at least as far away; and a number of 53 binary digits that is no multiple of it lies below the
power of two at which the distance begins, which is a multiple itself (`roundUnits_nearest`).
-/

namespace FeatureQuery

/-! ### Nearness -/

/-- The number that is so many units. -/
def Magnitude.toRat (m : Magnitude) : ℚ := m.units / 2 ^ 1074

/-- No finite double lies nearer to a number, and of two that lie equally near it is the one whose
significand is even. -/
structure Magnitude.IsNearest (m : Magnitude) (x : ℚ) : Prop where
  /-- No other is nearer. -/
  le (other : Magnitude) : |x - m.toRat| ≤ |x - other.toRat|
  /-- The distance to the next double divides it an even number of times, if another is as near. -/
  even (other : Magnitude) : other ≠ m → |x - m.toRat| = |x - other.toRat| →
    2 * 2 ^ gapExponent m.units ∣ m.units

/-- The first number that is rounded beyond the finite doubles: it lies halfway between the greatest
of them and the next power of two. -/
def Double.overflow : ℚ := (2 ^ 54 - 1) * 2 ^ 970

/-- What a number that is not negative is rounded to, with a sign in front. -/
inductive Double.Rounds (negative : Bool) (x : ℚ) : Double → Prop where
  /-- The nearest finite double. -/
  | finite {m : Magnitude} (below : x < overflow) (nearest : m.IsNearest x) :
      Rounds negative x (.finite negative m)
  /-- An infinity. -/
  | infinite (beyond : overflow ≤ x) : Rounds negative x (.infinite negative)

/-! ### Multiples of the distance -/

/-- A quotient halfway between two whole numbers is rounded to the even one. -/
theorem even_roundQuotient {num den : Nat} (hden : 0 < den)
    (h : 2 * num = 2 * (roundQuotient num den * den) + den ∨
      2 * num + den = 2 * (roundQuotient num den * den)) : 2 ∣ roundQuotient num den := by
  have hdiv : num / den * den + num % den = num := Nat.div_add_mod' num den
  have hlt := Nat.mod_lt num hden
  simp only [roundQuotient] at h ⊢
  split at h
  · omega
  · split at h
    · simp only [Nat.succ_mul] at h
      omega
    · rw [if_neg ‹_›, if_neg ‹_›]
      omega

section Round

variable {num den other : Nat}

theorem cast_roundUnits (num den : Nat) :
    (roundUnits num den : ℚ) =
      roundQuotient num (den * 2 ^ gapExponent (num / den)) * 2 ^ gapExponent (num / den) := by
  simp only [roundUnits, Nat.shiftLeft_eq]
  push_cast
  rfl

theorem gap_dvd_roundUnits (num den : Nat) :
    2 ^ gapExponent (num / den) ∣ roundUnits num den := by
  simp only [roundUnits, Nat.shiftLeft_eq]
  exact Nat.dvd_mul_left ..

/-- Rounding is to within half the distance. -/
theorem abs_sub_roundUnits_le (num : Nat) (hden : 0 < den) :
    |(num / den : ℚ) - roundUnits num den| ≤ 2 ^ gapExponent (num / den) / 2 := by
  rw [cast_roundUnits]
  generalize gapExponent (num / den) = k
  obtain ⟨hlower, hupper⟩ := roundQuotient_close num (Nat.mul_pos hden (Nat.two_pow_pos k))
  generalize roundQuotient num (den * 2 ^ k) = c at hlower hupper ⊢
  have hpos : (0 : ℚ) < den := Nat.cast_pos.mpr hden
  have hlower' : 2 * (num : ℚ) ≤ (2 * c + 1) * (den * 2 ^ k) := by exact_mod_cast hlower
  have hupper' : 2 * (c : ℚ) * (den * 2 ^ k) ≤ 2 * num + den * 2 ^ k := by exact_mod_cast hupper
  rw [abs_le]
  constructor
  · have hle : (c * 2 ^ k - 2 ^ k / 2 : ℚ) ≤ num / den := by
      rw [le_div_iff₀ hpos]
      linarith
    linarith
  · have hle : (num / den : ℚ) ≤ c * 2 ^ k + 2 ^ k / 2 := by
      rw [div_le_iff₀ hpos]
      linarith
    linarith

/-- A quotient halfway between two multiples of the distance is rounded to the even one. -/
theorem even_of_abs_eq (hden : 0 < den)
    (h : |(num / den : ℚ) - roundUnits num den| = 2 ^ gapExponent (num / den) / 2) :
    2 * 2 ^ gapExponent (num / den) ∣ roundUnits num den := by
  rw [cast_roundUnits] at h
  simp only [roundUnits, Nat.shiftLeft_eq]
  generalize gapExponent (num / den) = k at h ⊢
  refine Nat.mul_dvd_mul (even_roundQuotient (Nat.mul_pos hden (Nat.two_pow_pos k)) ?_) dvd_rfl
  generalize roundQuotient num (den * 2 ^ k) = c at h ⊢
  have hpos : (den : ℚ) ≠ 0 := Nat.cast_ne_zero.mpr (Nat.ne_of_gt hden)
  have hnum : (num : ℚ) = num / den * den := (div_mul_cancel₀ _ hpos).symm
  rcases (abs_eq (by positivity)).mp h with habove | hbelow
  · left
    have heq : 2 * (num : ℚ) = 2 * (c * (den * 2 ^ k)) + den * 2 ^ k := by
      rw [hnum, eq_add_of_sub_eq habove]
      ring
    exact_mod_cast heq
  · right
    have heq : 2 * (num : ℚ) + den * 2 ^ k = 2 * (c * (den * 2 ^ k)) := by
      rw [hnum, eq_add_of_sub_eq hbelow]
      ring
    exact_mod_cast heq

/-- Every other multiple of the distance lies at least half the distance away. -/
theorem half_gap_le_abs (hden : 0 < den) (hdvd : 2 ^ gapExponent (num / den) ∣ other)
    (hne : other ≠ roundUnits num den) :
    (2 ^ gapExponent (num / den) / 2 : ℚ) ≤ |(num / den : ℚ) - other| := by
  obtain ⟨hlower, hupper⟩ := abs_le.mp (abs_sub_roundUnits_le num hden)
  have hround := gap_dvd_roundUnits num den
  rw [le_abs]
  rcases Nat.lt_or_gt_of_ne hne with hlt | hgt
  · have hle : (other + 2 ^ gapExponent (num / den) : ℚ) ≤ roundUnits num den := by
      exact_mod_cast Magnitude.add_gap_le_of_dvd hdvd hround hlt
    left
    linarith
  · have hle : (roundUnits num den + 2 ^ gapExponent (num / den) : ℚ) ≤ other := by
      exact_mod_cast Magnitude.add_gap_le_of_dvd hround hdvd hgt
    right
    linarith

/-- A number of 53 binary digits that is no multiple of the distance lies below the power of two at
which the distance begins. -/
theorem lt_of_not_gap_dvd {m j : Nat} (hm : m < 1 <<< 53)
    (hdvd : ¬ 2 ^ gapExponent (num / den) ∣ m <<< j) :
    m <<< j < 2 ^ (52 + gapExponent (num / den)) ∧
      2 ^ (52 + gapExponent (num / den)) ≤ num / den := by
  rw [Nat.shiftLeft_eq] at hdvd ⊢
  have hj : j < gapExponent (num / den) := Nat.lt_of_not_le fun hle =>
    hdvd (Nat.dvd_mul_left_of_dvd (Nat.pow_dvd_pow 2 hle) m)
  constructor
  · calc m * 2 ^ j < 2 ^ 53 * 2 ^ j := Nat.mul_lt_mul_of_pos_right hm (Nat.two_pow_pos j)
      _ = 2 ^ (53 + j) := (Nat.pow_add 2 53 j).symm
      _ ≤ 2 ^ (52 + gapExponent (num / den)) := Nat.pow_le_pow_right Nat.two_pos (by omega)
  · have hlog : 52 + gapExponent (num / den) = (num / den).log2 := by
      rw [gapExponent] at hj ⊢
      omega
    rw [hlog]
    refine Nat.log2_self_le fun hzero => ?_
    rw [hzero, Nat.log2_zero] at hlog
    omega

/-- The distance to the next double divides what is rounded no less often than the distance by which
it was rounded. -/
theorem two_mul_gap_dvd (h : 2 * 2 ^ gapExponent (num / den) ∣ roundUnits num den) :
    2 * 2 ^ gapExponent (roundUnits num den) ∣ roundUnits num den := by
  have hle : roundUnits num den ≤ 2 ^ (53 + gapExponent (num / den)) := by
    have hround := roundQuotient_gap_le num den
    simp only [roundUnits, Nat.shiftLeft_eq, Nat.one_mul] at hround ⊢
    rw [Nat.pow_add]
    exact Nat.mul_le_mul_right _ hround
  generalize roundUnits num den = units at h hle ⊢
  generalize gapExponent (num / den) = k at h hle
  rcases Nat.lt_or_eq_of_le hle with hlt | heq
  · have hgap : gapExponent units ≤ k := by
      by_cases hzero : units = 0
      · simp [gapExponent, hzero]
      · have := (Nat.log2_lt hzero).mpr hlt
        rw [gapExponent]
        omega
    exact (Nat.mul_dvd_mul_left 2 (Nat.pow_dvd_pow 2 hgap)).trans h
  -- one binary digit more has come by rounding up to a power of two
  · have hgap : gapExponent units = k + 1 := by
      rw [heq, gapExponent, Nat.log2_two_pow]
      omega
    rw [hgap, heq, ← Nat.pow_succ']
    exact Nat.pow_dvd_pow 2 (by omega)

/-- **Rounding is to the nearest** of all numbers with 53 significant binary digits, and from
halfway between two of them to the even one. -/
theorem roundUnits_nearest (num : Nat) (hden : 0 < den) {m j : Nat} (hm : m < 1 <<< 53)
    (hother : other = m <<< j) :
    |(num / den : ℚ) - roundUnits num den| ≤ |(num / den : ℚ) - other| ∧
      (other ≠ roundUnits num den →
        |(num / den : ℚ) - roundUnits num den| = |(num / den : ℚ) - other| →
          2 * 2 ^ gapExponent (roundUnits num den) ∣ roundUnits num den) := by
  have hclose := abs_sub_roundUnits_le num hden
  by_cases hdvd : 2 ^ gapExponent (num / den) ∣ other
  · by_cases hsame : other = roundUnits num den
    · exact ⟨by rw [hsame], fun hne => absurd hsame hne⟩
    · have hfar := half_gap_le_abs hden hdvd hsame
      refine ⟨hclose.trans hfar, fun _ heq => two_mul_gap_dvd (even_of_abs_eq hden ?_)⟩
      exact le_antisymm hclose (heq ▸ hfar)
  · rw [hother] at hdvd
    obtain ⟨hbelow, hpower⟩ := lt_of_not_gap_dvd hm hdvd
    rw [← hother] at hbelow
    -- the power of two is as near as half the distance, or what is rounded
    have hnear : |(num / den : ℚ) - roundUnits num den| ≤
        |(num / den : ℚ) - (2 ^ (52 + gapExponent (num / den)) : Nat)| := by
      by_cases hsame : 2 ^ (52 + gapExponent (num / den)) = roundUnits num den
      · rw [hsame]
      · exact hclose.trans (half_gap_le_abs hden (Nat.pow_dvd_pow 2 (by omega)) hsame)
    have hle : ((2 ^ (52 + gapExponent (num / den)) : Nat) : ℚ) ≤ num / den :=
      (Nat.cast_le.mpr hpower).trans Nat.cast_div_le
    have hlt : (other : ℚ) < (2 ^ (52 + gapExponent (num / den)) : Nat) := Nat.cast_lt.mpr hbelow
    have hfar : |(num / den : ℚ) - roundUnits num den| < |(num / den : ℚ) - other| := by
      rw [abs_of_nonneg (sub_nonneg.mpr hle)] at hnear
      rw [abs_of_nonneg (sub_nonneg.mpr (hlt.le.trans hle))]
      linarith
    exact ⟨hfar.le, fun _ heq => absurd heq hfar.ne⟩

end Round

/-! ### Beyond the finite doubles -/

/-- A number of 53 binary digits below a power of two is no greater than the greatest of them. -/
theorem shiftLeft_le_of_lt {m k top : Nat} (hm : m < 1 <<< 53) (h : m <<< k < 1 <<< (53 + top)) :
    m <<< k ≤ (1 <<< 53 - 1) <<< top := by
  simp only [Nat.shiftLeft_eq, Nat.one_mul] at hm h ⊢
  rcases Nat.lt_or_ge k top with hk | hk
  · exact Nat.mul_le_mul (Nat.le_pred_of_lt hm) (Nat.pow_le_pow_right Nat.two_pos hk.le)
  · obtain ⟨j, rfl⟩ := Nat.exists_eq_add_of_le' hk
    rw [Nat.pow_add, ← Nat.mul_assoc] at h ⊢
    rw [Nat.pow_add] at h
    exact Nat.mul_le_mul_right _ (Nat.le_pred_of_lt (Nat.lt_of_mul_lt_mul_right h))

/-- The greatest finite double. -/
def Magnitude.greatest : Magnitude where
  units := (1 <<< 53 - 1) <<< 2045
  isDouble := ⟨⟨_, _, by decide, rfl⟩, by decide +kernel⟩

theorem Magnitude.le_greatest (m : Magnitude) : m.units ≤ greatest.units := by
  obtain ⟨units, ⟨s, k, hs, rfl⟩, hlimit⟩ := m
  exact shiftLeft_le_of_lt hs hlimit

/-- The greatest finite double has an odd significand. -/
theorem Magnitude.not_even_greatest :
    ¬ 2 * 2 ^ gapExponent greatest.units ∣ greatest.units := by
  decide +kernel

theorem cast_greatest : (Magnitude.greatest.units : ℚ) = (2 ^ 54 - 2) * 2 ^ 2044 := by
  have h : Magnitude.greatest.units = (2 ^ 54 - 2) * 2 ^ 2044 := by decide +kernel
  rw [h, Nat.cast_mul, Nat.cast_pow, Nat.cast_ofNat]
  norm_num

theorem cast_doubleLimit : (doubleLimit : ℚ) = 2 ^ 54 * 2 ^ 2044 := by
  have h : doubleLimit = 2 ^ 54 * 2 ^ 2044 := by decide +kernel
  rw [h, Nat.cast_mul, Nat.cast_pow, Nat.cast_pow, Nat.cast_ofNat]

/-- **A quotient is rounded beyond the finite doubles** from halfway between the greatest of them
and the next power of two. -/
theorem roundUnits_lt_doubleLimit_iff {num den : Nat} (hden : 0 < den) :
    roundUnits num den < doubleLimit ↔ (num / den : ℚ) < (2 ^ 54 - 1) * 2 ^ 2044 := by
  have hsmall (h : roundUnits num den < doubleLimit) :
      (roundUnits num den : ℚ) ≤ (2 ^ 54 - 2) * 2 ^ 2044 := by
    rw [← cast_greatest]
    exact Nat.cast_le.mpr (Magnitude.le_greatest ⟨_, isDouble_roundUnits h⟩)
  have hlarge (h : doubleLimit ≤ roundUnits num den) :
      (2 ^ 54 * 2 ^ 2044 : ℚ) ≤ roundUnits num den := by
    rw [← cast_doubleLimit]
    exact Nat.cast_le.mpr h
  obtain ⟨hgreatest, -⟩ := roundUnits_nearest num hden (m := 1 <<< 53 - 1) (by decide)
    (rfl : Magnitude.greatest.units = _)
  obtain ⟨hlimit, heven⟩ := roundUnits_nearest num hden (m := 1) (j := 2098) (by decide)
    (rfl : doubleLimit = _)
  have hodd (h : (roundUnits num den : ℚ) = (2 ^ 54 - 2) * 2 ^ 2044) :
      ¬ 2 * 2 ^ gapExponent (roundUnits num den) ∣ roundUnits num den := by
    rw [← cast_greatest, Nat.cast_inj] at h
    rw [h]
    exact Magnitude.not_even_greatest
  have hhalf : (0 : ℚ) < 2 ^ 2044 := by positivity
  rw [cast_greatest] at hgreatest
  rw [cast_doubleLimit] at hlimit heven
  generalize (2 : ℚ) ^ 2044 = half at *
  generalize (num / den : ℚ) = x at *
  constructor
  · intro hlt
    have hle := hsmall hlt
    by_contra hge
    rw [abs_of_nonneg (by linarith : 0 ≤ x - roundUnits num den)] at hlimit heven
    rcases abs_cases (x - 2 ^ 54 * half) with ⟨habs, -⟩ | ⟨habs, -⟩ <;> rw [habs] at hlimit heven
    · linarith
    -- the quotient lies in the middle, and would have been rounded to the even one
    · exact hodd (by linarith) (heven hlt.ne' (by linarith))
  · intro hlt
    by_contra hge
    have hle := hlarge (Nat.le_of_not_lt hge)
    rw [abs_sub_comm, abs_of_nonneg (by linarith : 0 ≤ roundUnits num den - x)] at hgreatest
    rcases abs_cases (x - (2 ^ 54 - 2) * half) with ⟨habs, -⟩ | ⟨habs, -⟩ <;>
      rw [habs] at hgreatest <;> linarith

/-! ### There is only one nearest -/

namespace Magnitude

theorem units_injective : Function.Injective units := fun m m' h => by
  cases m
  cases m'
  cases h
  rfl

theorem toRat_lt_iff {m m' : Magnitude} : m.toRat < m'.toRat ↔ m.units < m'.units := by
  rw [toRat, toRat, div_lt_div_iff_of_pos_right (by positivity), Nat.cast_lt]

/-- There is a finite double between two whose significands are even. -/
theorem exists_between {m m' : Magnitude} (h : m.units < m'.units)
    (heven : 2 * 2 ^ gapExponent m.units ∣ m.units)
    (heven' : 2 * 2 ^ gapExponent m'.units ∣ m'.units) :
    ∃ other : Magnitude, m.units < other.units ∧ other.units < m'.units := by
  have hgap : gapExponent m.units ≤ gapExponent m'.units :=
    gapExponent_le (h.trans Nat.lt_log2_self)
  have hdvd := (Nat.mul_dvd_mul_left 2 (Nat.pow_dvd_pow 2 hgap)).trans heven'
  have hle := add_gap_le_of_dvd heven hdvd h
  have hpos := Nat.two_pow_pos (gapExponent m.units)
  obtain ⟨c, hc⟩ := heven
  have hdigits : 2 * c < 2 ^ 53 := by
    have hlt : m.units < 2 ^ (gapExponent m.units + 53) := Nat.lt_of_lt_of_le Nat.lt_log2_self
      (Nat.pow_le_pow_right Nat.two_pos (by rw [gapExponent]; omega))
    rw [Nat.pow_add] at hlt
    refine Nat.lt_of_mul_lt_mul_left (a := 2 ^ gapExponent m.units) ?_
    rwa [← Nat.mul_assoc, Nat.mul_comm _ 2, ← hc]
  have hnext : (2 * c + 1) <<< gapExponent m.units = m.units + 2 ^ gapExponent m.units := by
    rw [Nat.shiftLeft_eq, Nat.succ_mul, Nat.mul_right_comm, ← hc]
  have hshort : 2 * c + 1 < 1 <<< 53 := by
    rw [Nat.one_shiftLeft]
    omega
  have hlimit : m.units + 2 ^ gapExponent m.units < doubleLimit := by
    have := m'.isDouble.2
    omega
  refine ⟨⟨m.units + 2 ^ gapExponent m.units, ⟨_, _, hshort, hnext.symm⟩, hlimit⟩, ?_, ?_⟩
  · exact Nat.lt_add_of_pos_right hpos
  · change m.units + 2 ^ gapExponent m.units < m'.units
    omega

variable {m m' : Magnitude} {x : ℚ}

theorem IsNearest.not_lt (h : m.IsNearest x) (h' : m'.IsNearest x) : ¬ m.units < m'.units := by
  intro hlt
  have hsame : |x - m.toRat| = |x - m'.toRat| := le_antisymm (h.le m') (h'.le m)
  obtain ⟨other, hbelow, habove⟩ := exists_between hlt
    (h.even m' (fun heq => hlt.ne (heq ▸ rfl)) hsame)
    (h'.even m (fun heq => hlt.ne (heq ▸ rfl)) hsame.symm)
  rw [← toRat_lt_iff] at hlt hbelow habove
  have hle := h.le other
  rcases abs_eq_abs.mp hsame with heq | heq
  · linarith
  -- the number lies in the middle, and so the double between the two is nearer
  · rw [abs_of_nonneg (by linarith : 0 ≤ x - m.toRat), le_abs] at hle
    rcases hle with hle | hle <;> linarith

/-- **The nearest is unique.** -/
theorem IsNearest.unique (h : m.IsNearest x) (h' : m'.IsNearest x) : m = m' :=
  units_injective
    (Nat.le_antisymm (Nat.le_of_not_lt (h'.not_lt h)) (Nat.le_of_not_lt (h.not_lt h')))

end Magnitude

/-- **A number is rounded to one double.** -/
theorem Double.Rounds.unique {negative : Bool} {x : ℚ} {d d' : Double} (h : Rounds negative x d)
    (h' : Rounds negative x d') : d = d' := by
  cases h with
  | finite below nearest =>
    cases h' with
    | finite _ nearest' => rw [nearest.unique nearest']
    | infinite beyond => exact absurd below (not_lt.mpr beyond)
  | infinite beyond =>
    cases h' with
    | finite below _ => exact absurd below (not_lt.mpr beyond)
    | infinite _ => rfl

/-! ### The double of a quotient -/

/-- A number and a finite double in units are as far apart, in units. -/
theorem Magnitude.abs_sub_toRat (m : Magnitude) (x : ℚ) :
    |x - m.toRat| = |x * 2 ^ 1074 - m.units| / 2 ^ 1074 := by
  have hpos : (0 : ℚ) < 2 ^ 1074 := by positivity
  rw [toRat]
  generalize (2 : ℚ) ^ 1074 = unit at hpos ⊢
  rw [← abs_of_pos hpos, ← abs_div, abs_of_pos hpos, sub_div, mul_div_cancel_right₀ _ hpos.ne']

/-- The quotient in units. -/
theorem cast_div_units (num den : Nat) :
    ((num * unitsPerOne : ℕ) / den : ℚ) = num / den * 2 ^ 1074 := by
  have hunits : unitsPerOne = 2 ^ 1074 := by decide +kernel
  rw [hunits, Nat.cast_mul, Nat.cast_pow, Nat.cast_ofNat, mul_div_right_comm]

/-- What is rounded to the nearest in units is the nearest finite double. -/
theorem Magnitude.isNearest_of_ofRatio? {num den : Nat} (hden : 0 < den) {m : Magnitude}
    (h : ofRatio? num den = some m) : m.IsNearest (num / den) := by
  have hunits := ofRatio?_eq_some_iff.mp h
  have hpos : (0 : ℚ) < 2 ^ 1074 := by positivity
  have hnear (other : Magnitude) :=
    have ⟨_, _, hs, hother⟩ := other.isDouble.1
    roundUnits_nearest (num * unitsPerOne) hden hs hother
  rw [← hunits, cast_div_units] at hnear
  constructor
  · intro other
    rw [abs_sub_toRat, abs_sub_toRat]
    exact div_le_div_of_nonneg_right (hnear other).1 hpos.le
  · intro other hne heq
    rw [abs_sub_toRat, abs_sub_toRat, div_left_inj' hpos.ne'] at heq
    exact (hnear other).2 (fun hsame => hne (units_injective hsame)) heq

/-- **The double of a quotient is the nearest**, or an infinity from the overflow on. -/
theorem Double.rounds_ofRatio (negative : Bool) (num : Nat) {den : Nat} (hden : 0 < den) :
    Rounds negative (num / den) (ofRatio negative num den) := by
  have hpos : (0 : ℚ) < 2 ^ 1074 := by positivity
  have hlimit : roundUnits (num * unitsPerOne) den < doubleLimit ↔ (num / den : ℚ) < overflow := by
    rw [← mul_lt_mul_iff_left₀ hpos, ← cast_div_units, overflow, mul_assoc, ← pow_add]
    exact roundUnits_lt_doubleLimit_iff hden
  rw [ofRatio]
  cases h : Magnitude.ofRatio? num den with
  | some m =>
    have hunits := Magnitude.ofRatio?_eq_some_iff.mp h
    exact .finite (hlimit.mp (hunits ▸ m.isDouble.2)) (Magnitude.isNearest_of_ofRatio? hden h)
  | none =>
    refine .infinite (not_lt.mp fun hlt => ?_)
    rw [Magnitude.ofRatio?, dif_pos (hlimit.mpr hlt)] at h
    exact absurd h (Option.some_ne_none _)

end FeatureQuery
