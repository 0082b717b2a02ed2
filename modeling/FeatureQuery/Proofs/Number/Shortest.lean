import FeatureQuery.Proofs.Number.Rounding

/-!
# The shortest decimal rounds back

Every decimal that the search for the shortest form can give lies in the interval of the magnitude
(`Magnitude.holds_shortest`), and so it is rounded to the magnitude (`Magnitude.ofRatio?_shortest`).
The search cannot fail: with the last exponent the decimal is the magnitude itself.
-/

namespace FeatureQuery.Magnitude

/-- A decimal of the interval, as a quotient in units. -/
theorem Interval.contains_of_holds {i : Interval} {d : Decimal} (h : i.holds d = true) :
    i.Contains (d.digits * Nat.pow 10 d.exponent.toNat * unitsPerOne)
      (Nat.pow 10 (-d.exponent).toNat) := by
  have hvalue : d.digits * tenNum d.exponent =
      4 * (d.digits * Nat.pow 10 d.exponent.toNat * unitsPerOne) := by
    rw [tenNum, ← Nat.mul_assoc, Nat.mul_left_comm]
  simp only [holds, hvalue, tenDen] at h
  cases hclosed : i.closed <;>
    simp only [hclosed, Bool.false_eq_true, if_true, if_false, Bool.and_eq_true,
      decide_eq_true_eq] at h
  · exact ⟨⟨Nat.le_of_lt h.1, Nat.le_of_lt h.2⟩, fun _ => ⟨Nat.ne_of_lt h.1, Nat.ne_of_lt h.2⟩⟩
  · exact ⟨h, fun hopen => by simp [hclosed] at hopen⟩

/-- The nearer of two neighbours is one of them. -/
theorem nearer_eq (tie : Tie) (m : Magnitude) (digits : Nat) (exponent : Int) :
    m.nearer tie digits exponent = digits ∨ m.nearer tie digits exponent = digits + 1 := by
  simp only [nearer]
  split
  · exact .inl rfl
  · split
    · exact .inr rfl
    · cases tie
      · exact .inr rfl
      · simp only
        omega

/-- What is found with an exponent lies in the interval. -/
theorem holds_of_atExponent? {tie : Tie} {m : Magnitude} {exponent : Int} {d : Decimal}
    (h : m.atExponent? tie exponent = some d) : m.interval.holds d = true := by
  simp only [atExponent?] at h
  split at h
  · rename_i hfirst hsecond
    obtain rfl := Option.some.inj h
    rcases nearer_eq tie m (4 * m.units * tenDen exponent / tenNum exponent) exponent with
      hnear | hnear <;> rw [hnear] <;> assumption
  · exact Option.some.inj h ▸ ‹_›
  · exact Option.some.inj h ▸ ‹_›
  · simp at h

theorem tenDen_pos (exponent : Int) : 0 < tenDen exponent := Nat.pow_pos (by decide)

theorem shiftLeft_dvd_tenDen (exponent : Int) : 1 <<< (-exponent).toNat ∣ tenDen exponent := by
  rw [Nat.one_shiftLeft]
  exact pow_dvd_pow_of_dvd (by decide : 2 ∣ 10) _

/-- With the last exponent every magnitude is a whole number of tens. -/
theorem tenNum_last_dvd (m : Magnitude) : tenNum (-1074) ∣ 4 * m.units * tenDen (-1074) := by
  have hnum : tenNum (-1074) = 4 * unitsPerOne := Nat.one_mul _
  have hden : unitsPerOne ∣ tenDen (-1074) := by
    rw [unitsPerOne, show 1074 = (-(-1074 : Int)).toNat from rfl]
    exact shiftLeft_dvd_tenDen (-1074)
  rw [hnum]
  exact Nat.mul_dvd_mul (Nat.dvd_mul_right 4 m.units) hden

/-- With the last exponent the decimal is the magnitude itself. -/
theorem holds_last {m : Magnitude} (hm : m.units ≠ 0) :
    m.interval.holds ⟨4 * m.units * tenDen (-1074) / tenNum (-1074), -1074⟩ = true := by
  have hpos := tenDen_pos (-1074)
  have hlower : (4 * m.units - m.below) * tenDen (-1074) < 4 * m.units * tenDen (-1074) :=
    Nat.mul_lt_mul_of_pos_right (by have := m.below_pos; omega) hpos
  have hupper : 4 * m.units * tenDen (-1074) <
      (4 * m.units + 2 * 2 ^ gapExponent m.units) * tenDen (-1074) :=
    Nat.mul_lt_mul_of_pos_right (by have := Nat.two_pow_pos (gapExponent m.units); omega) hpos
  simp only [Interval.holds, interval_eq, Nat.div_mul_cancel m.tenNum_last_dvd]
  split <;> simp [hlower, hupper, Nat.le_of_lt]

theorem holds_search (tie : Tie) {m : Magnitude} (hm : m.units ≠ 0) (n : Nat) :
    m.interval.holds (m.search tie n) = true := by
  induction n with
  | zero => exact holds_last hm
  | succ n ih =>
    rw [search]
    split
    · exact holds_of_atExponent? ‹_›
    · exact ih

/-- The shortest decimal lies in the interval of the magnitude. -/
theorem holds_shortest (tie : Tie) {m : Magnitude} (hm : m.units ≠ 0) :
    m.interval.holds (m.shortest tie) = true :=
  holds_search tie hm _

/-- **The shortest decimal rounds back** to the magnitude. -/
theorem ofRatio?_shortest (tie : Tie) {m : Magnitude} (hm : m.units ≠ 0) :
    ofRatio? ((m.shortest tie).digits * Nat.pow 10 (m.shortest tie).exponent.toNat)
      (Nat.pow 10 (-(m.shortest tie).exponent).toNat) = some m :=
  ofRatio?_eq_some_iff.mpr
    (roundUnits_eq hm (Nat.pow_pos (by decide))
      (Interval.contains_of_holds (holds_shortest tie hm))).symm

end FeatureQuery.Magnitude
