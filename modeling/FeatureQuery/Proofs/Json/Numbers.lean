import FeatureQuery.Json.Number
import FeatureQuery.Json.Printer
import Mathlib.Algebra.Order.Ring.Nat
import Mathlib.Data.List.TakeWhile

/-!
# Numbers read back

A number ends where a character follows that cannot stand in a number, so it is read in the same way
whatever begins with such a character and follows it (`readNumber?_append`). A whole number within
64 bits is always read back as it was written (`isReread_whole`). A double need not be: it is
nearest to the decimal that is written for it, but reading that decimal takes several rounded steps,
which may lead beside it. `Double.IsReread` says of a double that they lead back to it.
-/

namespace FeatureQuery

open Scientific (readDigits? readExponent?)

/-- The text of the number reads back as the same number. -/
def JsonNumber.IsReread (n : JsonNumber) : Prop :=
  Json.readNumber? n.text.toList = some (n, [])

instance (n : JsonNumber) : Decidable n.IsReread :=
  inferInstanceAs (Decidable (Json.readNumber? n.text.toList = some (n, [])))

/-- The digits that are written for the double in JSON read back as the same double. -/
def Double.IsReread (d : Double) : Prop := (JsonNumber.double d).IsReread

instance (d : Double) : Decidable d.IsReread :=
  inferInstanceAs (Decidable (JsonNumber.double d).IsReread)

namespace Json

/-- A character that may stand in a number. -/
def isNumberChar (c : Char) : Bool :=
  c.isDigit || c = '-' || c = '+' || c = '.' || c = 'e' || c = 'E'

/-- A number that stands before this text ends there. -/
def EndsNumber (rest : List Char) : Prop := ∀ c ∈ rest.head?, isNumberChar c = false

namespace EndsNumber

variable {c : Char} {rest : List Char}

theorem nil : EndsNumber [] := by simp [EndsNumber]

theorem cons (h : isNumberChar c = false) : EndsNumber (c :: rest) := by simpa [EndsNumber] using h

theorem isDigit_eq_false (h : EndsNumber rest) (hc : c ∈ rest.head?) : c.isDigit = false := by
  have := h c hc
  simp only [isNumberChar, Bool.or_eq_false_iff] at this
  exact this.1.1.1.1.1

theorem head?_ne (h : EndsNumber rest) (hc : isNumberChar c = true) : rest.head? ≠ some c := by
  intro hhead
  rw [h c hhead] at hc
  cases hc

end EndsNumber

variable {cs ds tail rest : List Char} {c : Char}

/-! ### What follows a number does not matter -/

theorem takeWhile_isDigit_append (cs : List Char) (hrest : EndsNumber rest) :
    (cs ++ rest).takeWhile Char.isDigit = cs.takeWhile Char.isDigit := by
  induction cs with
  | nil => cases rest with
    | nil => rfl
    | cons c rest => exact List.takeWhile_cons_of_neg (by simp [hrest.isDigit_eq_false rfl])
  | cons c cs ih =>
    rw [List.cons_append, List.takeWhile_cons, List.takeWhile_cons, ih]

theorem dropWhile_isDigit_append (cs : List Char) (hrest : EndsNumber rest) :
    (cs ++ rest).dropWhile Char.isDigit = cs.dropWhile Char.isDigit ++ rest := by
  refine (List.append_right_inj (cs.takeWhile Char.isDigit)).1 ?_
  rw [← List.append_assoc, List.takeWhile_append_dropWhile, ← takeWhile_isDigit_append cs hrest,
    List.takeWhile_append_dropWhile]

theorem readDigits?_append (h : readDigits? cs = some (ds, tail)) (hrest : EndsNumber rest) :
    readDigits? (cs ++ rest) = some (ds, tail ++ rest) := by
  rw [readDigits?] at h
  split at h
  · cases h
  · cases h
    rw [readDigits?, takeWhile_isDigit_append cs hrest, dropWhile_isDigit_append cs hrest,
      if_neg ‹_›]

/-- Digits begin with a digit. -/
theorem exists_digit_of_readDigits? (h : readDigits? cs = some (ds, tail)) :
    ∃ c cs', cs = c :: cs' ∧ c.isDigit = true := by
  cases cs with
  | nil => simp [readDigits?] at h
  | cons c cs' =>
    refine ⟨c, cs', rfl, Decidable.byContradiction fun hc => ?_⟩
    simp [readDigits?, hc] at h

theorem exists_digit_of_readWhole? (h : readWhole? cs = some (ds, tail)) :
    ∃ c cs', cs = c :: cs' ∧ c.isDigit = true := by
  rw [readWhole?.eq_def] at h
  split at h
  · exact ⟨'0', _, rfl, rfl⟩
  · exact exists_digit_of_readDigits? h

theorem readWhole?_append (h : readWhole? cs = some (ds, tail)) (hrest : EndsNumber rest) :
    readWhole? (cs ++ rest) = some (ds, tail ++ rest) := by
  obtain ⟨c, cs', rfl, hc⟩ := exists_digit_of_readWhole? h
  by_cases hzero : c = '0'
  · subst hzero
    cases h
    rfl
  · rw [readWhole?] at h
    · rw [List.cons_append, readWhole?]
      · exact readDigits?_append h hrest
      · simp [hzero]
    · simp [hzero]

theorem readFraction?_append (h : readFraction? cs = some (ds, tail)) (hrest : EndsNumber rest) :
    readFraction? (cs ++ rest) = some (ds, tail ++ rest) := by
  rw [readFraction?.eq_def] at h
  split at h
  · exact readDigits?_append h hrest
  · rename_i hpoint
    cases h
    rw [readFraction?]
    intro after hafter
    cases cs with
    | nil => exact hrest.head?_ne (c := '.') rfl (by rw [← List.nil_append rest, hafter]; rfl)
    | cons c cs' => exact hpoint cs' (by rw [(List.cons.inj hafter).1])

theorem readExponent?_of_not {c : Char} (hc : ¬(c = 'e' ∨ c = 'E')) (cs : List Char) :
    readExponent? (c :: cs) = some (none, c :: cs) := by
  unfold readExponent?
  exact if_neg hc

theorem readExponent?_of_endsNumber (hrest : EndsNumber rest) :
    readExponent? rest = some (none, rest) := by
  cases rest with
  | nil => rfl
  | cons c rest =>
    refine readExponent?_of_not ?_ rest
    rintro (rfl | rfl)
    · exact hrest.head?_ne (c := 'e') rfl rfl
    · exact hrest.head?_ne (c := 'E') rfl rfl

theorem map_readDigits?_append (sign : Nat → Int) {e : Option Int}
    (h : ((readDigits? cs).map fun (ds, rest) => (some (sign (Nat.ofDigitChars 10 ds 0)), rest)) =
      some (e, tail)) (hrest : EndsNumber rest) :
    ((readDigits? (cs ++ rest)).map fun (ds, rest) =>
      (some (sign (Nat.ofDigitChars 10 ds 0)), rest)) = some (e, tail ++ rest) := by
  obtain ⟨⟨ds, after⟩, hread, heq⟩ := Option.map_eq_some_iff.1 h
  cases heq
  rw [readDigits?_append hread hrest]
  rfl

theorem readExponent?_append {e : Option Int} (h : readExponent? cs = some (e, tail))
    (hrest : EndsNumber rest) : readExponent? (cs ++ rest) = some (e, tail ++ rest) := by
  cases cs with
  | nil =>
    cases h
    exact readExponent?_of_endsNumber hrest
  | cons c cs =>
    by_cases hc : c = 'e' ∨ c = 'E'
    · unfold readExponent? at h ⊢
      simp only [List.cons_append, if_pos hc] at h ⊢
      split at h
      · exact map_readDigits?_append (fun n => -n) h hrest
      · exact map_readDigits?_append (fun n => n) h hrest
      · rename_i hminus hplus
        cases cs with
        | nil => simp [readDigits?] at h
        | cons d cs =>
          rw [List.cons_append]
          split
          · rename_i heq
            exact (hminus cs (by rw [(List.cons.inj heq).1])).elim
          · rename_i heq
            exact (hplus cs (by rw [(List.cons.inj heq).1])).elim
          · exact map_readDigits?_append (fun n => n) h hrest
    · rw [readExponent?_of_not hc] at h
      cases h
      exact readExponent?_of_not hc _

theorem readUnsigned?_append {negative : Bool} {n : JsonNumber}
    (h : readUnsigned? negative cs = some (n, tail)) (hrest : EndsNumber rest) :
    readUnsigned? negative (cs ++ rest) = some (n, tail ++ rest) := by
  simp only [readUnsigned?, Option.bind_eq_bind, Option.bind_eq_some_iff, Option.some.injEq,
    Prod.mk.injEq] at h ⊢
  obtain ⟨⟨whole, cs1⟩, hwhole, ⟨fraction, cs2⟩, hfraction, ⟨e, cs3⟩, hexponent, m, hm, rfl, rfl⟩ :=
    h
  exact ⟨_, readWhole?_append hwhole hrest, _, readFraction?_append hfraction hrest, _,
    readExponent?_append hexponent hrest, m, hm, rfl, rfl⟩

/-- A number begins with a hyphen or a digit. -/
theorem exists_head_of_readNumber? {n : JsonNumber} (h : readNumber? cs = some (n, tail)) :
    ∃ c cs', cs = c :: cs' ∧ (c = '-' ∨ c.isDigit = true) := by
  rw [readNumber?.eq_def] at h
  split at h
  · exact ⟨'-', _, rfl, .inl rfl⟩
  · simp only [readUnsigned?, Option.bind_eq_bind, Option.bind_eq_some_iff] at h
    obtain ⟨⟨whole, cs1⟩, hwhole, -⟩ := h
    obtain ⟨c, cs', heq, hc⟩ := exists_digit_of_readWhole? hwhole
    exact ⟨c, cs', heq, .inr hc⟩

/-- **A number is read in the same way whatever follows it**, if that begins with no character of a
number. -/
theorem readNumber?_append {n : JsonNumber} (h : readNumber? cs = some (n, tail))
    (hrest : EndsNumber rest) : readNumber? (cs ++ rest) = some (n, tail ++ rest) := by
  obtain ⟨c, cs', rfl, -⟩ := exists_head_of_readNumber? h
  by_cases hminus : c = '-'
  · subst hminus
    exact readUnsigned?_append h hrest
  · rw [readNumber?] at h
    · rw [List.cons_append, readNumber?]
      · exact readUnsigned?_append h hrest
      · simp [hminus]
    · simp [hminus]

/-! ### What a number holds -/

theorem mem_of_readDigits? (h : readDigits? cs = some (ds, tail)) (hc : c ∈ cs) :
    isNumberChar c = true ∨ c ∈ tail := by
  rw [readDigits?] at h
  split at h
  · cases h
  · cases h
    rw [← List.takeWhile_append_dropWhile (p := Char.isDigit) (l := cs)] at hc
    refine (List.mem_append.1 hc).imp_left fun hdigit => ?_
    simp [isNumberChar, List.mem_takeWhile_imp hdigit]

theorem mem_of_readWhole? (h : readWhole? cs = some (ds, tail)) (hc : c ∈ cs) :
    isNumberChar c = true ∨ c ∈ tail := by
  rw [readWhole?.eq_def] at h
  split at h
  · cases h
    obtain rfl | hc := List.mem_cons.1 hc
    · exact .inl rfl
    · exact .inr hc
  · exact mem_of_readDigits? h hc

theorem mem_of_readFraction? (h : readFraction? cs = some (ds, tail)) (hc : c ∈ cs) :
    isNumberChar c = true ∨ c ∈ tail := by
  rw [readFraction?.eq_def] at h
  split at h
  · obtain rfl | hc := List.mem_cons.1 hc
    · exact .inl rfl
    · exact mem_of_readDigits? h hc
  · cases h
    exact .inr hc

theorem mem_of_map_readDigits? (sign : Nat → Int) {e : Option Int}
    (h : ((readDigits? cs).map fun (ds, rest) => (some (sign (Nat.ofDigitChars 10 ds 0)), rest)) =
      some (e, tail)) (hc : c ∈ cs) : isNumberChar c = true ∨ c ∈ tail := by
  obtain ⟨⟨ds, after⟩, hread, heq⟩ := Option.map_eq_some_iff.1 h
  cases heq
  exact mem_of_readDigits? hread hc

theorem mem_of_readExponent? {e : Option Int} (h : readExponent? cs = some (e, tail))
    (hc : c ∈ cs) : isNumberChar c = true ∨ c ∈ tail := by
  cases cs with
  | nil => cases hc
  | cons d cs =>
    by_cases hd : d = 'e' ∨ d = 'E'
    · obtain rfl | hc := List.mem_cons.1 hc
      · exact .inl (by rcases hd with rfl | rfl <;> rfl)
      · unfold readExponent? at h
        simp only [if_pos hd] at h
        split at h
        · obtain rfl | hc := List.mem_cons.1 hc
          · exact .inl rfl
          · exact mem_of_map_readDigits? (fun n => -n) h hc
        · obtain rfl | hc := List.mem_cons.1 hc
          · exact .inl rfl
          · exact mem_of_map_readDigits? (fun n => n) h hc
        · exact mem_of_map_readDigits? (fun n => n) h hc
    · rw [readExponent?_of_not hd] at h
      cases h
      exact .inr hc

theorem mem_of_readUnsigned? {negative : Bool} {n : JsonNumber}
    (h : readUnsigned? negative cs = some (n, tail)) (hc : c ∈ cs) :
    isNumberChar c = true ∨ c ∈ tail := by
  simp only [readUnsigned?, Option.bind_eq_bind, Option.bind_eq_some_iff, Option.some.injEq,
    Prod.mk.injEq] at h
  obtain ⟨⟨whole, cs1⟩, hwhole, ⟨fraction, cs2⟩, hfraction, ⟨e, cs3⟩, hexponent, m, hm, rfl, rfl⟩ :=
    h
  refine (mem_of_readWhole? hwhole hc).elim .inl fun hc => ?_
  refine (mem_of_readFraction? hfraction hc).elim .inl fun hc => ?_
  exact mem_of_readExponent? hexponent hc

/-- **Only characters of a number are read as one.** -/
theorem mem_of_readNumber? {n : JsonNumber} (h : readNumber? cs = some (n, tail)) (hc : c ∈ cs) :
    isNumberChar c = true ∨ c ∈ tail := by
  rw [readNumber?.eq_def] at h
  split at h
  · obtain rfl | hc := List.mem_cons.1 hc
    · exact .inl rfl
    · exact mem_of_readUnsigned? h hc
  · exact mem_of_readUnsigned? h hc

/-! ### Numbers within their range -/

end Json

namespace JsonNumber

/-- A number that a JSON text can hold: a whole number within 64 bits, with or without a sign, or a
finite double. -/
def InRange : JsonNumber → Prop
  | .whole n => -(UInt64.size / 2 : Nat) ≤ n ∧ n < UInt64.size
  | .double d => ∃ negative m, d = .finite negative m

end JsonNumber

namespace Json

variable {cs tail : List Char}

theorem inRange_of_numberOf? {s : Scientific} {n : JsonNumber} (h : numberOf? s = some n) :
    n.InRange := by
  simp only [numberOf?, UInt64.size] at h
  split at h
  · cases h
    simp only [JsonNumber.InRange, UInt64.size]
    omega
  split at h
  · cases h
    simp only [JsonNumber.InRange, UInt64.size]
    omega
  · obtain ⟨m, -, rfl⟩ := Option.map_eq_some_iff.1 h
    exact ⟨_, m, rfl⟩

/-- **What is read is in range.** -/
theorem inRange_of_readNumber? {n : JsonNumber} (h : readNumber? cs = some (n, tail)) :
    n.InRange := by
  rw [readNumber?.eq_def] at h
  split at h <;>
  · simp only [readUnsigned?, Option.bind_eq_bind, Option.bind_eq_some_iff, Option.some.injEq,
      Prod.mk.injEq] at h
    obtain ⟨_, -, _, -, _, -, m, hm, rfl, -⟩ := h
    exact inRange_of_numberOf? hm

end Json

namespace JsonNumber

/-- Rounding gives at most 53 binary digits times the gap. -/
theorem roundUnits_le (num den : Nat) :
    roundUnits num den ≤ 2 ^ (53 + gapExponent (num / den)) := by
  have hle := roundQuotient_gap_le num den
  rw [Nat.one_shiftLeft] at hle
  rw [roundUnits, Nat.shiftLeft_eq, Nat.pow_add]
  exact Nat.mul_le_mul_right _ hle

/-- A number of 64 bits, in units of which `2 ^ k` make up one, rounds to less than `2 ^ l` units if
`l` is large enough. -/
theorem roundUnits_lt {n k l : Nat} (h : n < 2 ^ 64) (hkl : 53 + (64 + k) ≤ l) :
    roundUnits (n * (1 <<< k)) 1 < 1 <<< l := by
  have hunits : n * (1 <<< k) < 2 ^ (64 + k) := by
    rw [Nat.one_shiftLeft, Nat.pow_add]
    exact Nat.mul_lt_mul_of_pos_right h (Nat.two_pow_pos k)
  have hgap : gapExponent (n * (1 <<< k) / 1) < 64 + k := by
    rw [Nat.div_one, gapExponent]
    by_cases hzero : n * (1 <<< k) = 0
    · rw [hzero, Nat.log2_zero]
      omega
    · have hlog := (Nat.log2_lt hzero).2 hunits
      omega
  rw [Nat.one_shiftLeft l]
  refine Nat.lt_of_le_of_lt (roundUnits_le _ _) (Nat.pow_lt_pow_right (by decide) ?_)
  omega

/-- A whole number within 64 bits is near a finite double. -/
theorem exists_toDouble_eq {n : JsonNumber} (h : n.InRange) :
    ∃ negative m, n.toDouble = .finite negative m := by
  cases n with
  | double d => exact h
  | whole n =>
    have hsize : n.natAbs < 2 ^ 64 := by
      simp only [InRange, UInt64.size] at h
      omega
    have hlt : roundUnits (n.natAbs * unitsPerOne) 1 < doubleLimit :=
      roundUnits_lt hsize (by decide)
    rw [toDouble, Double.ofInt, Double.ofRatio, Magnitude.ofRatio?, dif_pos hlt]
    exact ⟨_, _, rfl⟩

/-! ### Whole numbers -/

/-- A number other than zero is written without leading zeros. -/
theorem head?_toDigits_ne {n : Nat} (h : n ≠ 0) : (Nat.toDigits 10 n).head? ≠ some '0' := by
  induction n using Nat.strongRecOn with
  | _ n ih =>
    rw [Nat.toDigits_eq_if (by decide)]
    split
    · simpa using h
    · have hfront := ih (n / 10) (by omega) (by omega)
      obtain ⟨c, cs, heq⟩ :=
        List.exists_cons_of_ne_nil (Nat.toDigits_ne_nil (n := n / 10) (b := 10))
      rw [heq] at hfront ⊢
      exact hfront

theorem readWhole?_toDigits (n : Nat) :
    Json.readWhole? (Nat.toDigits 10 n) = some (Nat.toDigits 10 n, []) := by
  have hdigits : ∀ c ∈ Nat.toDigits 10 n, c.isDigit = true := fun c hc =>
    Nat.isDigit_of_mem_toDigits (by decide) (by decide) hc
  by_cases hzero : n = 0
  · subst hzero
    rfl
  · rw [Json.readWhole?]
    · rw [readDigits?, List.takeWhile_eq_self_iff.2 hdigits, List.dropWhile_eq_nil_iff.2 hdigits,
        if_neg Nat.toDigits_ne_nil]
    · intro rest hrest
      exact head?_toDigits_ne hzero (by rw [hrest]; rfl)

/-- The parts of a whole number denote it. -/
theorem numberOf?_toDigits {n : Int} (h : (whole n).InRange) :
    Json.numberOf? ⟨n < 0, Nat.toDigits 10 n.natAbs, [], none⟩ = some (.whole n) := by
  obtain ⟨hlower, hupper⟩ : -(UInt64.size / 2 : Nat) ≤ n ∧ n < UInt64.size := h
  simp only [UInt64.size] at hlower hupper
  simp only [Json.numberOf?, Nat.ofDigitChars_ten_toDigits, UInt64.size, true_and]
  by_cases hsign : n < 0
  · rw [if_neg (by simp [hsign]), if_pos ⟨by simp [hsign], by omega, by omega⟩]
    congr 2
    omega
  · rw [if_pos ⟨by simp [hsign], by omega⟩]
    congr 2
    omega

/-- **A whole number within 64 bits is read back.** -/
theorem isReread_whole {n : Int} (h : (whole n).InRange) : (whole n).IsReread := by
  have hread : Json.readUnsigned? (n < 0) (Nat.toDigits 10 n.natAbs) = some (whole n, []) := by
    simp only [Json.readUnsigned?, readWhole?_toDigits, Option.bind_eq_bind, Option.bind_some,
      Json.readFraction?, readExponent?, numberOf?_toDigits h]
  rw [IsReread]
  by_cases hsign : n < 0
  · have htext : (whole n).text.toList = '-' :: Nat.toDigits 10 n.natAbs := by
      simp [text, Text.ofInt, Text.ofNat, hsign]
    rw [htext, Json.readNumber?, ← hread, decide_eq_true hsign]
  · have htext : (whole n).text.toList = Nat.toDigits 10 n.natAbs := by
      simp [text, Text.ofInt, Text.ofNat, hsign]
    rw [htext, Json.readNumber?, ← hread, decide_eq_false hsign]
    intro rest hrest
    have hdigit := Nat.isDigit_of_mem_toDigits (by decide) (by decide)
      (hrest ▸ List.mem_cons_self : '-' ∈ Nat.toDigits 10 n.natAbs)
    exact absurd hdigit (by decide)

end JsonNumber

end FeatureQuery
