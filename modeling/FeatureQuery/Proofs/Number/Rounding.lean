import FeatureQuery.Number.Shortest
import Mathlib.Algebra.Order.Ring.Nat
import Mathlib.Tactic.ByContra

/-!
# Rounding to the nearest double

A quotient of whole numbers rounds to a double if it lies in the double's interval: within half a
distance of its neighbours on either side, and on the boundary if the significand is even
(`Magnitude.roundUnits_eq`). Below a power of two the doubles lie half as far apart, and a quotient
from there is rounded by the smaller distance.
-/

namespace FeatureQuery

/-- **The nearest whole number** to a quotient is the one to within one half, and the even one if
there are two. -/
theorem roundQuotient_eq {num den c : Nat} (hden : 0 < den) (hlower : 2 * (c * den) ≤ 2 * num + den)
    (hupper : 2 * num ≤ 2 * (c * den) + den)
    (htie : c % 2 = 1 → 2 * (c * den) ≠ 2 * num + den ∧ 2 * num ≠ 2 * (c * den) + den) :
    roundQuotient num den = c := by
  have hdiv : num / den * den + num % den = num := Nat.div_add_mod' num den
  have hlt := Nat.mod_lt num hden
  have hle : num / den ≤ c := by
    by_contra hgt
    have hmul : (c + 1) * den ≤ num / den * den := Nat.mul_le_mul_right den (by omega)
    rw [Nat.succ_mul] at hmul
    omega
  have hge : c ≤ num / den + 1 := by
    by_contra hgt
    have hmul : (num / den + 2) * den ≤ c * den := Nat.mul_le_mul_right den (by omega)
    rw [Nat.add_mul] at hmul
    omega
  simp only [roundQuotient]
  rcases Nat.lt_or_eq_of_le hle with hless | heq
  · obtain rfl : c = num / den + 1 := by omega
    simp only [Nat.succ_mul] at hlower htie
    split
    · omega
    · split <;> omega
  · rw [← heq] at hupper htie ⊢
    split
    · rfl
    · split <;> omega

/-- A quotient rounds to a multiple of the distance at its place, if it lies within half that
distance. -/
theorem roundUnits_eq_of_near {num den units k : Nat} (hden : 0 < den)
    (hk : gapExponent (num / den) = k) (hdvd : 2 ^ k ∣ units)
    (hlower : 2 * (units * den) ≤ 2 * num + 2 ^ k * den)
    (hupper : 2 * num ≤ 2 * (units * den) + 2 ^ k * den)
    (htie : units / 2 ^ k % 2 = 1 →
      2 * (units * den) ≠ 2 * num + 2 ^ k * den ∧ 2 * num ≠ 2 * (units * den) + 2 ^ k * den) :
    roundUnits num den = units := by
  obtain ⟨c, rfl⟩ := hdvd
  have hpos := Nat.two_pow_pos k
  have hmul : 2 ^ k * c * den = c * (2 ^ k * den) := by
    rw [Nat.mul_comm (2 ^ k) c, Nat.mul_assoc]
  rw [Nat.mul_div_cancel_left c hpos] at htie
  rw [hmul] at hlower hupper htie
  have hround := roundQuotient_eq (Nat.mul_pos hpos hden) hlower hupper htie
  simp only [roundUnits, hk, Nat.shiftLeft_eq]
  rw [Nat.mul_comm den, hround, Nat.mul_comm]

/-- The distance between neighbours grows with the number of binary digits. -/
theorem gapExponent_le {a b : Nat} (h : a < 2 ^ (b.log2 + 1)) : gapExponent a ≤ gapExponent b := by
  by_cases hzero : a = 0
  · simp [gapExponent, hzero]
  · have := (Nat.log2_lt hzero).mpr h
    simp only [gapExponent]
    omega

namespace Magnitude

/-- The distance between the neighbours of a magnitude divides it. -/
theorem gap_dvd (m : Magnitude) : 2 ^ gapExponent m.units ∣ m.units := by
  obtain ⟨⟨s, k, hs, hu⟩, -⟩ := m.isDouble
  rw [Nat.shiftLeft_eq, Nat.one_mul] at hs
  rw [Nat.shiftLeft_eq] at hu
  by_cases hzero : m.units = 0
  · simp [hzero]
  · have hlt : m.units < 2 ^ (53 + k) := by
      rw [hu, Nat.pow_add]
      exact Nat.mul_lt_mul_of_pos_right hs (Nat.two_pow_pos k)
    have hle : gapExponent m.units ≤ k := by
      have hlog := (Nat.log2_lt hzero).mpr hlt
      rw [gapExponent]
      omega
    exact (Nat.pow_dvd_pow 2 hle).trans (hu ▸ Nat.dvd_mul_left _ s)

/-! ### The interval of a magnitude -/

/-- The quotient lies in the interval. -/
def Interval.Contains (i : Interval) (num den : Nat) : Prop :=
  (i.lower * den ≤ 4 * num ∧ 4 * num ≤ i.upper * den) ∧
    (i.closed = false → i.lower * den ≠ 4 * num ∧ 4 * num ≠ i.upper * den)

/-- How far the interval reaches below the magnitude, in quarters of the unit. -/
def below (m : Magnitude) : Nat :=
  if m.units = 2 ^ m.units.log2 ∧ 1 < 2 ^ gapExponent m.units then 2 ^ gapExponent m.units
  else 2 * 2 ^ gapExponent m.units

theorem below_le (m : Magnitude) : m.below ≤ 2 * 2 ^ gapExponent m.units := by
  rw [below]
  split <;> omega

theorem below_pos (m : Magnitude) : 0 < m.below := by
  have := Nat.two_pow_pos (gapExponent m.units)
  rw [below]
  split <;> omega

theorem gap_le {m : Magnitude} (hm : m.units ≠ 0) : 2 ^ gapExponent m.units ≤ m.units :=
  Nat.le_of_dvd (Nat.pos_of_ne_zero hm) m.gap_dvd

/-- The ends of the interval, in terms of the distance between the neighbours. -/
theorem interval_eq (m : Magnitude) :
    m.interval = ⟨4 * m.units - m.below, 4 * m.units + 2 * 2 ^ gapExponent m.units,
      m.units / 2 ^ gapExponent m.units % 2 = 0⟩ := by
  simp only [interval, below, Nat.shiftLeft_eq, Nat.one_mul]

/-- **What lies in the interval** of a magnitude. -/
theorem contains_interval_iff {m : Magnitude} (hm : m.units ≠ 0) {num den : Nat} :
    m.interval.Contains num den ↔
      (4 * (m.units * den) ≤ 4 * num + m.below * den ∧
        4 * num ≤ 4 * (m.units * den) + 2 * (2 ^ gapExponent m.units * den)) ∧
      (m.units / 2 ^ gapExponent m.units % 2 = 1 →
        4 * (m.units * den) ≠ 4 * num + m.below * den ∧
          4 * num ≠ 4 * (m.units * den) + 2 * (2 ^ gapExponent m.units * den)) := by
  have hbelow : m.below * den ≤ 4 * m.units * den :=
    Nat.mul_le_mul_right den (by have := m.below_le; have := gap_le hm; omega)
  simp only [Interval.Contains, interval_eq, Nat.sub_mul, Nat.add_mul, Nat.mul_assoc,
    decide_eq_false_iff_not] at hbelow ⊢
  rw [show ∀ n : Nat, ¬ n % 2 = 0 ↔ n % 2 = 1 by omega]
  omega

/-- Multiples of the distance are a distance apart. -/
theorem add_gap_le_of_dvd {gap a b : Nat} (ha : gap ∣ a) (hb : gap ∣ b) (h : a < b) :
    a + gap ≤ b := by
  have := Nat.le_of_dvd (Nat.sub_pos_of_lt h) (Nat.dvd_sub hb ha)
  omega

/-- What rounds to a magnitude has no more binary digits. -/
theorem div_lt_of_contains {m : Magnitude} (hm : m.units ≠ 0) {num den : Nat} (hden : 0 < den)
    (h : m.interval.Contains num den) : num / den < 2 ^ (m.units.log2 + 1) := by
  obtain ⟨⟨-, hupper⟩, -⟩ := (contains_interval_iff hm).mp h
  have hpower : 2 ^ gapExponent m.units ∣ 2 ^ (m.units.log2 + 1) :=
    Nat.pow_dvd_pow 2 (by rw [gapExponent]; omega)
  have hnext : (m.units + 2 ^ gapExponent m.units) * den ≤ 2 ^ (m.units.log2 + 1) * den :=
    Nat.mul_le_mul_right den (add_gap_le_of_dvd m.gap_dvd hpower Nat.lt_log2_self)
  have hpos : 0 < 2 ^ gapExponent m.units * den := Nat.mul_pos (Nat.two_pow_pos _) hden
  rw [Nat.div_lt_iff_lt_mul hden]
  rw [Nat.add_mul] at hnext
  omega

/-- Only a power of two has numbers of fewer binary digits in its interval, and they lie within a
quarter of the distance. -/
theorem power_of_contains {m : Magnitude} (hm : m.units ≠ 0) {num den : Nat} (hden : 0 < den)
    (h : m.interval.Contains num den) (hless : num / den < 2 ^ m.units.log2)
    (hgap : 0 < gapExponent m.units) :
    m.units = 2 ^ m.units.log2 ∧ m.below = 2 ^ gapExponent m.units := by
  obtain ⟨⟨hlower, -⟩, -⟩ := (contains_interval_iff hm).mp h
  have hbelow : m.below * den ≤ 2 * (2 ^ gapExponent m.units * den) :=
    Nat.mul_assoc .. ▸ Nat.mul_le_mul_right den m.below_le
  have hpower : 2 ^ gapExponent m.units ∣ 2 ^ m.units.log2 :=
    Nat.pow_dvd_pow 2 (by rw [gapExponent]; omega)
  rw [Nat.div_lt_iff_lt_mul hden] at hless
  have heq : m.units = 2 ^ m.units.log2 := by
    by_contra hne
    have hmore : (2 ^ m.units.log2 + 2 ^ gapExponent m.units) * den ≤ m.units * den :=
      Nat.mul_le_mul_right den (add_gap_le_of_dvd hpower m.gap_dvd
        (Nat.lt_of_le_of_ne (Nat.log2_self_le hm) (Ne.symm hne)))
    rw [Nat.add_mul] at hmore
    omega
  exact ⟨heq, if_pos ⟨heq, Nat.one_lt_two_pow (Nat.ne_of_gt hgap)⟩⟩

/-- Just below a power of two the distance is half as large. -/
theorem gapExponent_below_power {m : Magnitude} (hm : m.units ≠ 0) {num den : Nat} (hden : 0 < den)
    (h : m.interval.Contains num den) (hless : num / den < 2 ^ m.units.log2)
    (hgap : 0 < gapExponent m.units) :
    gapExponent m.units = gapExponent (num / den) + 1 := by
  obtain ⟨hpower, hbelow⟩ := power_of_contains hm hden h hless hgap
  obtain ⟨⟨hlower, -⟩, -⟩ := (contains_interval_iff hm).mp h
  obtain ⟨k, hk⟩ : ∃ k, m.units.log2 = k + 1 :=
    Nat.exists_eq_add_one.mpr (by rw [gapExponent] at hgap; omega)
  rw [hk] at hless hpower
  have hle : 2 ^ gapExponent m.units * den ≤ 2 ^ k * den :=
    Nat.mul_le_mul_right den (Nat.pow_le_pow_right Nat.two_pos (by rw [gapExponent, hk]; omega))
  have htwice : m.units * den = 2 ^ k * den * 2 := by
    rw [hpower, Nat.pow_succ, Nat.mul_right_comm]
  have hmany : 2 ^ k ≤ num / den := by
    rw [Nat.le_div_iff_mul_le hden]
    rw [hbelow] at hlower
    omega
  have hne : num / den ≠ 0 := Nat.ne_of_gt (Nat.lt_of_lt_of_le (Nat.two_pow_pos k) hmany)
  have hlog : (num / den).log2 = k := (Nat.log2_eq_iff hne).mpr ⟨hmany, hless⟩
  simp only [gapExponent, hk, hlog] at hgap ⊢
  omega

/-- **A quotient in the interval of a magnitude rounds to it.** -/
theorem roundUnits_eq {m : Magnitude} (hm : m.units ≠ 0) {num den : Nat} (hden : 0 < den)
    (h : m.interval.Contains num den) : roundUnits num den = m.units := by
  obtain ⟨⟨hlower, hupper⟩, htie⟩ := (contains_interval_iff hm).mp h
  rcases Nat.lt_or_eq_of_le (gapExponent_le (div_lt_of_contains hm hden h)) with hless | hsame
  -- the quotient lies below a power of two and is rounded by the smaller distance
  · have hgap := Nat.zero_lt_of_lt hless
    have hlt : num / den < 2 ^ m.units.log2 := by
      by_contra hge
      have hlog := (Nat.le_log2 (Nat.ne_of_gt (Nat.lt_of_lt_of_le (Nat.two_pow_pos _)
        (Nat.le_of_not_lt hge)))).mpr (Nat.le_of_not_lt hge)
      simp only [gapExponent] at hless
      omega
    obtain ⟨hpower, hbelow⟩ := power_of_contains hm hden h hlt hgap
    have hhalf := gapExponent_below_power hm hden h hlt hgap
    rw [hbelow, hhalf, Nat.pow_succ, Nat.mul_right_comm] at hlower
    rw [Nat.div_lt_iff_lt_mul hden, ← hpower] at hlt
    obtain ⟨c, hc⟩ := m.gap_dvd
    rw [hhalf, Nat.pow_succ, Nat.mul_assoc] at hc
    refine roundUnits_eq_of_near hden rfl ⟨2 * c, hc⟩ (by omega) (by omega) fun hodd => ?_
    -- the multiple is even
    rw [hc, Nat.mul_div_cancel_left _ (Nat.two_pow_pos _)] at hodd
    omega
  · have hbelow : m.below * den ≤ 2 * (2 ^ gapExponent m.units * den) :=
      Nat.mul_assoc .. ▸ Nat.mul_le_mul_right den m.below_le
    exact roundUnits_eq_of_near hden hsame m.gap_dvd (by omega) (by omega)
      (fun hodd => by have := htie hodd; omega)

theorem ofRatio?_zero {m : Magnitude} (hm : m.units = 0) : ofRatio? 0 1 = some m := by
  rw [ofRatio?_eq_some_iff, hm, Nat.zero_mul]
  rfl

end Magnitude

end FeatureQuery
