import FeatureQuery.Number.Format
import FeatureQuery.Number.Numeral
import FeatureQuery.Proofs.Number.Shortest
import FeatureQuery.Proofs.Query.Wrapping

/-!
# Numbers read back from their text

The text of a finite double is a numeral of the query language, and the number it denotes is the
shortest decimal of the double. So the text reads back as the same double, zeros with their signs
among them (`readNumber?_plainText_finite`); the texts of the other doubles are no numerals.
-/

namespace FeatureQuery

/-! ### Reading a numeral -/

namespace Text

theorem isBlank_eq_false_of_isDigit {c : Char} (h : c.isDigit = true) : isBlank c = false := by
  have hdigit : 48 ≤ c.toNat ∧ c.toNat ≤ 57 := Char.isDigit_iff_toNat.mp h
  rw [Bool.eq_false_iff]
  intro hblank
  simp only [isBlank, Bool.or_eq_true, Bool.and_eq_true, decide_eq_true_eq, beq_iff_eq] at hblank
  omega

theorem trim_eq_self_of_forall {cs : List Char} (h : ∀ c ∈ cs, isBlank c = false) :
    trim cs = cs :=
  trim_eq_self (by simpa [Option.any_eq_false] using fun c hc => h c (List.mem_of_head? hc))
    (by simpa [Option.any_eq_false] using fun c hc => h c (List.mem_of_getLast? hc))

end Text

namespace Numeral

/-- The text is the numeral without its sign. -/
structure Writes (n : Numeral) (cs : List Char) : Prop where
  /-- Only digits stand on either side of the point. -/
  digits : ∀ c ∈ n.whole ++ n.fraction, c.isDigit = true
  /-- There is a digit. -/
  ne_nil : n.whole ++ n.fraction ≠ []
  /-- The point is left out only if nothing follows it. -/
  form : cs = n.whole ∧ n.fraction = [] ∨ cs = n.whole ++ '.' :: n.fraction

variable {n : Numeral} {cs : List Char}

theorem Writes.readUnsigned? (h : n.Writes cs) : readUnsigned? n.negative cs = some n := by
  obtain ⟨negative, whole, fraction⟩ := n
  obtain ⟨hdigits, hne, hform⟩ := h
  have hwhole : ∀ c ∈ whole, c.isDigit = true :=
    fun c hc => hdigits c (List.mem_append_left _ hc)
  have hfraction : fraction.all Char.isDigit = true :=
    List.all_eq_true.mpr fun c hc => hdigits c (List.mem_append_right _ hc)
  have htake (rest : List Char) :
      (whole ++ rest).takeWhile Char.isDigit = whole ++ rest.takeWhile Char.isDigit :=
    List.takeWhile_append_of_pos hwhole
  have hdrop (rest : List Char) :
      (whole ++ rest).dropWhile Char.isDigit = rest.dropWhile Char.isDigit :=
    List.dropWhile_append_of_pos hwhole
  rcases hform with ⟨rfl, hnone⟩ | rfl
  · have hall := hdrop []
    have hsame := htake []
    subst hnone
    simp only [List.append_nil, List.dropWhile_nil, List.takeWhile_nil] at hall hsame hne
    simp only [Numeral.readUnsigned?, hall, hsame, if_neg hne]
  · have hpoint : ('.' : Char).isDigit = false := rfl
    simp only [Numeral.readUnsigned?, htake, hdrop, List.takeWhile_cons, List.dropWhile_cons,
      hpoint, Bool.false_eq_true, if_false, List.append_nil]
    exact if_pos ⟨trivial, hfraction, hne⟩

/-- There are only digits and points in a numeral without its sign. -/
theorem Writes.isDigit_or (h : n.Writes cs) {c : Char} (hc : c ∈ cs) :
    c.isDigit = true ∨ c = '.' := by
  have hmem : c ∈ n.whole ++ n.fraction ∨ c = '.' := by
    rcases h.form with ⟨rfl, -⟩ | rfl
    · exact .inl (List.mem_append_left _ hc)
    · simp only [List.mem_append, List.mem_cons] at hc ⊢
      tauto
  exact hmem.imp_left (h.digits c)

theorem Writes.minus_notMem (h : n.Writes cs) : '-' ∉ cs := fun hmem => by
  simpa using h.isDigit_or hmem

theorem read?_minus {rest : List Char} (h : Text.trim cs = '-' :: rest) :
    read? cs = readUnsigned? true rest := by
  simp only [read?, h]

theorem read?_plain (h : ∀ rest, Text.trim cs ≠ '-' :: rest) :
    read? cs = readUnsigned? false (Text.trim cs) := by
  rw [read?]
  split
  · exact absurd ‹_› (h _)
  · rfl

/-- The sign is read first. -/
theorem read?_sign (negative : Bool) {cs : List Char} (hblank : ∀ c ∈ cs, Text.isBlank c = false)
    (hminus : '-' ∉ cs) :
    read? ((NumberFormat.sign negative).toList ++ cs) = readUnsigned? negative cs := by
  cases negative with
  | false =>
    have htrim : Text.trim cs = cs := Text.trim_eq_self_of_forall hblank
    change read? cs = readUnsigned? false cs
    refine (read?_plain fun rest heq => hminus ?_).trans (congrArg _ htrim)
    rw [← htrim, heq]
    exact List.mem_cons_self
  | true =>
    exact read?_minus (Text.trim_eq_self_of_forall (List.forall_mem_cons.mpr ⟨rfl, hblank⟩))

/-- **A numeral is read back**, with its sign. -/
theorem Writes.read? (h : n.Writes cs) :
    read? ((NumberFormat.sign n.negative).toList ++ cs) = some n := by
  have hblank : ∀ c ∈ cs, Text.isBlank c = false := fun c hc =>
    (h.isDigit_or hc).elim Text.isBlank_eq_false_of_isDigit (fun hpoint => hpoint ▸ rfl)
  rw [read?_sign n.negative hblank h.minus_notMem, h.readUnsigned?]

end Numeral

/-! ### The text of a decimal -/

/-- The digits of a decimal with the point among them are a numeral of the same value. -/
theorem Decimal.writes_positional (d : Decimal) (negative : Bool) :
    ∃ n : Numeral, n.Writes (d.positional false).toList ∧ n.negative = negative ∧
      Nat.ofDigitChars 10 (n.whole ++ n.fraction) 0 = d.digits * Nat.pow 10 d.exponent.toNat ∧
      n.fraction.length = (-d.exponent).toNat := by
  have hdigits : ∀ c ∈ Nat.toDigits 10 d.digits, c.isDigit = true :=
    fun c hc => Nat.isDigit_of_mem_toDigits (by decide) (by decide) hc
  have hne : Nat.toDigits 10 d.digits ≠ [] := Nat.toDigits_ne_nil
  have hvalue := Nat.ofDigitChars_ten_toDigits (n := d.digits)
  rw [positional, String.toList_ofList]
  revert hdigits hne hvalue
  generalize Nat.toDigits 10 d.digits = digits
  intro hdigits hne hvalue
  have hzeros (n : Nat) : ∀ c ∈ List.replicate n '0', c.isDigit = true :=
    fun c hc => (List.mem_replicate.mp hc).2 ▸ rfl
  split
  -- zeros follow the digits, and there is no point
  · have hplaces : (-d.exponent).toNat = 0 := by omega
    refine ⟨⟨negative, digits ++ List.replicate d.exponent.toNat '0', []⟩, ⟨?_, ?_, .inl ?_⟩, rfl,
      ?_, hplaces.symm⟩
    · rw [List.append_nil]
      exact List.forall_mem_append.mpr ⟨hdigits, hzeros _⟩
    · simp [hne]
    · simp
    · rw [List.append_nil, Nat.ofDigitChars_append, hvalue, Nat.ofDigitChars_replicate_zero,
        Nat.mul_comm]
      rfl
  · have hpower : Nat.pow 10 d.exponent.toNat = 1 := by
      rw [show d.exponent.toNat = 0 by omega]
    rw [hpower, Nat.mul_one]
    dsimp only
    generalize (-d.exponent).toNat = places
    split
    -- the point stands among the digits
    · refine ⟨⟨negative, digits.take (digits.length - places),
        digits.drop (digits.length - places)⟩, ⟨?_, ?_, .inr rfl⟩, rfl, ?_, ?_⟩
      · simpa using hdigits
      · simpa using hne
      · simpa using hvalue
      · simp only [List.length_drop]
        omega
    -- zeros stand between the point and the digits
    · refine ⟨⟨negative, ['0'], List.replicate (places - digits.length) '0' ++ digits⟩,
        ⟨?_, ?_, .inr rfl⟩, rfl, ?_, ?_⟩
      · exact List.forall_mem_append.mpr ⟨by simp, List.forall_mem_append.mpr ⟨hzeros _, hdigits⟩⟩
      · simp
      · rw [Nat.ofDigitChars_append, Nat.ofDigitChars_append, Nat.ofDigitChars_replicate_zero]
        exact hvalue
      · simp only [List.length_append, List.length_replicate]
        omega

/-- **A finite double reads back** from its text. -/
theorem readNumber?_plainText_finite (negative : Bool) (m : Magnitude) :
    readNumber? (Double.finite negative m).plainText = some (.finite negative m) := by
  rw [Double.plainText, NumberFormat.text, readNumber?, String.toList_append]
  by_cases hm : m.units = 0
  · have hzero : (⟨negative, ['0'], []⟩ : Numeral).Writes ['0'] :=
      ⟨by simp, by simp, .inl ⟨rfl, rfl⟩⟩
    have htext : (NumberFormat.plain.magnitude m).toList = ['0'] := by
      rw [NumberFormat.magnitude, if_pos hm]
      rfl
    rw [htext, hzero.read?]
    exact congrArg (some ∘ Double.ofRounded negative) (Magnitude.ofRatio?_zero hm)
  · have htext : NumberFormat.plain.magnitude m = (m.shortest .up).positional false := by
      rw [NumberFormat.magnitude, if_neg hm]
      rfl
    obtain ⟨n, hn, rfl, hdigits, hplaces⟩ := (m.shortest .up).writes_positional negative
    rw [htext, hn.read?, Option.map_some, Numeral.value, hdigits, hplaces, Double.ofRatio,
      Magnitude.ofRatio?_shortest .up hm, Double.ofRounded]

/-- The infinities and what is no number have texts that are no numerals. -/
theorem readNumber?_plainText_infinite (negative : Bool) :
    readNumber? (Double.infinite negative).plainText = none := by
  cases negative <;> decide

theorem readNumber?_plainText_nan : readNumber? Double.nan.plainText = none := by
  decide

end FeatureQuery
