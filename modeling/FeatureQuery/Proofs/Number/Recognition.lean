import FeatureQuery.Number.Scientific
import FeatureQuery.Proofs.Number.Nearest
import FeatureQuery.Proofs.Number.Plain
import Mathlib.Data.List.TakeWhile

/-!
# Which texts are numbers

A text is a number if it is, without the blanks around it, a decimal after an optional minus sign:
digits with at most one point before, among or after them (`IsDecimal`). Its double is the one to
which the number is rounded that the decimal denotes (`decimalValue`), and no other text has a
double (`numbers_are_decimals`).

The same texts are read step by step (`readInSteps?`): a minus sign, the longest run of digits and
points, which is left to a reader of the freest form of numbers, and then nothing. That reader
takes signs, exponents and words as well, but a run of digits and points holds none of them; and it
rounds the same number (`readFree?_eq`).
-/

namespace FeatureQuery

/-! ### Decimals -/

/-- Digits with at most one point before, among or after them. -/
structure IsDecimal (cs : List Char) : Prop where
  /-- There are only digits and points. -/
  chars : ∀ c ∈ cs, c.isDigit = true ∨ c = '.'
  /-- There is no second point. -/
  point : cs.count '.' ≤ 1
  /-- There is a digit. -/
  digit : ∃ c ∈ cs, c.isDigit = true

/-- The number that digits after the point denote: each counts tenths of what the one before it
counts. -/
def fractionValue : List Char → ℚ
  | [] => 0
  | c :: cs => ((c.toNat - '0'.toNat : ℕ) + fractionValue cs) / 10

/-- The number that digits with a point among them denote. -/
def decimalValue (cs : List Char) : ℚ :=
  Nat.ofDigitChars 10 (cs.takeWhile (· ≠ '.')) 0 + fractionValue (cs.dropWhile (· ≠ '.')).tail

/-- The text without the blanks around it is a decimal, after a minus sign or without one. -/
structure SpellsDecimal (s : String) (negative : Bool) (cs : List Char) : Prop where
  /-- Nothing but the sign stands before the decimal, and nothing after it. -/
  trimmed : Text.trim s.toList = (NumberFormat.sign negative).toList ++ cs
  /-- What follows the sign is a decimal. -/
  decimal : IsDecimal cs

/-- Digits after the point are digits before it, divided by a power of ten. -/
theorem ofDigitChars_div_pow (fraction : List Char) (n : Nat) :
    (Nat.ofDigitChars 10 fraction n : ℚ) / 10 ^ fraction.length = n + fractionValue fraction := by
  induction fraction generalizing n with
  | nil => simp [fractionValue]
  | cons c cs ih =>
    rw [Nat.ofDigitChars_cons, List.length_cons, pow_succ, ← div_div, ih, fractionValue]
    push_cast
    ring

namespace Numeral

variable {n : Numeral} {cs : List Char} {negative : Bool}

/-- **A decimal has its parts**, and is written with them. -/
theorem exists_writes (h : IsDecimal cs) (negative : Bool) :
    ∃ n : Numeral, n.negative = negative ∧ n.Writes cs := by
  obtain ⟨c, hc, hdigit⟩ := h.digit
  have hpoint := h.point
  have hdigits (part : List Char) (hsub : ∀ c ∈ part, c ∈ cs) (hcount : part.count '.' = 0) :
      ∀ c ∈ part, c.isDigit = true := fun c hc =>
    (h.chars c (hsub c hc)).resolve_right fun heq => List.count_eq_zero.mp hcount (heq ▸ hc)
  by_cases hmem : '.' ∈ cs
  · obtain ⟨whole, fraction, rfl⟩ := List.append_of_mem hmem
    rw [List.count_append, List.count_cons_self] at hpoint
    have hwhole := hdigits whole (by simp +contextual) (by omega)
    have hfraction := hdigits fraction (by simp +contextual) (by omega)
    refine ⟨⟨negative, whole, fraction⟩, rfl, List.forall_mem_append.mpr ⟨hwhole, hfraction⟩, ?_,
      .inr rfl⟩
    -- a point alone has no digit
    intro hnil
    obtain ⟨rfl, rfl⟩ := List.append_eq_nil_iff.mp hnil
    rw [List.nil_append, List.mem_singleton] at hc
    exact absurd (hc ▸ hdigit) (by decide)
  · refine ⟨⟨negative, cs, []⟩, rfl, ?_, ?_, .inl ⟨rfl, rfl⟩⟩
    · rw [List.append_nil]
      exact hdigits cs (fun _ => id) (List.count_eq_zero.mpr hmem)
    · rw [List.append_nil]
      exact List.ne_nil_of_mem hc

/-- What is written with the parts of a numeral is a decimal. -/
theorem Writes.isDecimal (h : n.Writes cs) : IsDecimal cs := by
  have hcount {part : List Char} (hsub : ∀ c ∈ part, c ∈ n.whole ++ n.fraction) :
      part.count '.' = 0 :=
    List.count_eq_zero.mpr fun hmem => absurd (h.digits _ (hsub _ hmem)) (by decide)
  obtain ⟨c, hc⟩ := List.exists_mem_of_ne_nil _ h.ne_nil
  refine ⟨fun c hc => h.isDigit_or hc, ?_, c, ?_, h.digits c hc⟩
  · rcases h.form with ⟨rfl, -⟩ | rfl
    · rw [hcount (by simp +contextual)]
      exact Nat.zero_le 1
    · rw [List.count_append, List.count_cons_self, hcount (by simp +contextual),
        hcount (by simp +contextual)]
  · rcases h.form with ⟨rfl, hnone⟩ | rfl
    · simpa [hnone] using hc
    · simp only [List.mem_append, List.mem_cons] at hc ⊢
      tauto

/-- What is read without its sign is written with the parts read. -/
theorem readUnsigned?_eq_some_iff :
    readUnsigned? negative cs = some n ↔ n.negative = negative ∧ n.Writes cs := by
  constructor
  · intro h
    have hsplit := List.takeWhile_append_dropWhile (p := Char.isDigit) (l := cs)
    have hwhole : ∀ c ∈ cs.takeWhile Char.isDigit, c.isDigit = true :=
      fun c hc => List.mem_takeWhile_imp hc
    simp only [readUnsigned?] at h
    revert h hsplit
    generalize cs.takeWhile Char.isDigit = whole at hwhole ⊢
    cases cs.dropWhile Char.isDigit with
    | nil =>
      intro h hsplit
      obtain ⟨hne, heq⟩ := Option.ite_none_left_eq_some.mp h
      obtain rfl := Option.some.inj heq
      rw [List.append_nil] at hsplit
      exact ⟨rfl, by simpa using hwhole, by simpa using hne, .inl ⟨hsplit.symm, rfl⟩⟩
    | cons c fraction =>
      intro h hsplit
      obtain ⟨⟨rfl, hfraction, hne⟩, heq⟩ := Option.ite_none_right_eq_some.mp h
      obtain rfl := Option.some.inj heq
      exact ⟨rfl, List.forall_mem_append.mpr ⟨hwhole, List.all_eq_true.mp hfraction⟩, hne,
        .inr hsplit.symm⟩
  · rintro ⟨rfl, h⟩
    exact h.readUnsigned?

/-- **What is read** is a sign and then a text that is written with the parts read. -/
theorem read?_eq_some_iff :
    read? cs = some n ↔
      ∃ body, Text.trim cs = (NumberFormat.sign n.negative).toList ++ body ∧ n.Writes body := by
  by_cases hminus : ∃ rest, Text.trim cs = '-' :: rest
  · obtain ⟨rest, htrim⟩ := hminus
    rw [read?_minus htrim, readUnsigned?_eq_some_iff]
    constructor
    · rintro ⟨hsign, h⟩
      exact ⟨rest, by rw [htrim, hsign]; rfl, h⟩
    · rintro ⟨body, heq, h⟩
      cases hsign : n.negative with
      | true =>
        rw [htrim, hsign] at heq
        exact ⟨rfl, List.tail_eq_of_cons_eq heq ▸ h⟩
      | false =>
        rw [htrim, hsign] at heq
        have hbody : '-' :: rest = body := heq
        exact absurd (hbody ▸ List.mem_cons_self) h.minus_notMem
  · rw [read?_plain (not_exists.mp hminus), readUnsigned?_eq_some_iff]
    constructor
    · rintro ⟨hsign, h⟩
      exact ⟨_, by rw [hsign]; rfl, h⟩
    · rintro ⟨body, heq, h⟩
      cases hsign : n.negative with
      | true =>
        rw [hsign] at heq
        exact absurd ⟨body, heq⟩ hminus
      | false =>
        rw [hsign] at heq
        exact ⟨rfl, by rw [heq]; exact h⟩

/-- The parts denote the number that the decimal denotes. -/
theorem Writes.decimalValue_eq (h : n.Writes cs) :
    (Nat.ofDigitChars 10 (n.whole ++ n.fraction) 0 : ℚ) / 10 ^ n.fraction.length =
      decimalValue cs := by
  have hwhole : ∀ c ∈ n.whole, decide (c ≠ '.') = true := fun c hc => by
    have hdigit := h.digits c (List.mem_append_left _ hc)
    exact decide_eq_true fun heq => absurd (heq ▸ hdigit) (by decide)
  rw [Nat.ofDigitChars_append, ofDigitChars_div_pow, decimalValue]
  rcases h.form with ⟨rfl, hnone⟩ | rfl
  · rw [hnone, List.takeWhile_eq_self_iff.mpr hwhole, List.dropWhile_eq_nil_iff.mpr hwhole]
    rfl
  · rw [List.takeWhile_append_of_pos hwhole, List.dropWhile_append_of_pos hwhole]
    simp

/-- **The double of a numeral** is the one to which the decimal is rounded. -/
theorem Writes.rounds (h : n.Writes cs) :
    Double.Rounds n.negative (decimalValue cs) n.value := by
  have hround := Double.rounds_ofRatio n.negative (Nat.ofDigitChars 10 (n.whole ++ n.fraction) 0)
    (Nat.pow_pos (n := n.fraction.length) (by decide : 0 < 10))
  rw [Nat.cast_pow, Nat.cast_ofNat, h.decimalValue_eq] at hround
  exact hround

end Numeral

/-! ### Reading in the freest form -/

/-- The double with the other sign. -/
def Double.neg : Double → Double
  | .finite negative m => .finite (!negative) m
  | .infinite negative => .infinite (!negative)
  | .nan => .nan

/-- A word, in letters of either case, for what is no finite number. -/
def readWord? (negative : Bool) (cs : List Char) : Option Double :=
  let word := cs.map Char.toLower
  if word = "inf".toList ∨ word = "infinity".toList then some (.infinite negative)
  else if word = "nan".toList then some .nan
  else none

/-- The double of a number in the freest form: after a sign of either kind come digits and a point
with an exponent, or a word. -/
def readFree? (cs : List Char) : Option Double :=
  match Scientific.read? cs with
  | some number => some number.toDouble
  | none =>
    match cs with
    | '-' :: rest => readWord? true rest
    | '+' :: rest => readWord? false rest
    | rest => readWord? false rest

/-- A digit or a point. -/
def isDigitOrPoint (c : Char) : Bool := c.isDigit || c == '.'

/-- The longest run of digits and points, which is not empty and is read in the freest form, and
nothing after it. -/
def readRun? (cs : List Char) : Option Double :=
  if cs.takeWhile isDigitOrPoint = [] then none
  else do
    let number ← readFree? (cs.takeWhile isDigitOrPoint)
    if cs.dropWhile isDigitOrPoint = [] then some number else none

/-- The number of a text, read step by step: a minus sign if there is one, and then a run. -/
def readInSteps? (s : String) : Option Double :=
  match Text.trim s.toList with
  | '-' :: rest => (readRun? rest).map Double.neg
  | rest => readRun? rest

/-! ### Rounding in the freest form -/

theorem roundUnits_eq_zero {num den : Nat} (h : 2 * num < den) : roundUnits num den = 0 := by
  have hdiv : num / den = 0 := Nat.div_eq_of_lt (by omega)
  have hmod : num % den = num := Nat.mod_eq_of_lt (by omega)
  have hgap : gapExponent 0 = 0 := by decide
  simp only [roundUnits, hdiv, hgap, Nat.shiftLeft_zero, roundQuotient, hmod, if_pos h]

/-- What is less than half a unit is rounded to zero. -/
theorem Double.ofRatio_of_tiny (negative : Bool) {num den : Nat}
    (h : 2 * (num * unitsPerOne) < den) : ofRatio negative num den = ofRatio negative 0 1 := by
  have hzero {num den : Nat} (h : 2 * (num * unitsPerOne) < den) :
      Magnitude.ofRatio? num den = some ⟨0, ⟨0, 0, by decide, rfl⟩, by decide⟩ :=
    Magnitude.ofRatio?_eq_some_iff.mpr (roundUnits_eq_zero h).symm
  rw [ofRatio, ofRatio, hzero h, hzero (by decide)]

/-- So many places after the point make a number less than half a unit. -/
theorem tiny_of_places {digits places : Nat} (h : digits.log2 + 400 < places) :
    2 * (digits * unitsPerOne) < 10 ^ places := by
  have hunits : 2 * unitsPerOne = 2 ^ 1075 := by decide +kernel
  calc 2 * (digits * unitsPerOne) = digits * (2 * unitsPerOne) := Nat.mul_left_comm ..
    _ = digits * 2 ^ 1075 := by rw [hunits]
    _ < 2 ^ (digits.log2 + 1) * 2 ^ 1075 :=
        Nat.mul_lt_mul_of_pos_right Nat.lt_log2_self (by positivity)
    _ = 2 ^ (digits.log2 + 1 + 1075) := (pow_add 2 _ _).symm
    _ ≤ 2 ^ (3 * places) := Nat.pow_le_pow_right Nat.two_pos (by omega)
    _ = 8 ^ places := Nat.pow_mul ..
    _ ≤ 10 ^ places := Nat.pow_le_pow_left (by decide) places

/-- No guard changes the double of a decimal with places after the point. -/
theorem Double.ofDecimal_places (negative : Bool) (digits places : Nat) :
    ofDecimal negative ⟨digits, -places⟩ = ofRatio negative digits (10 ^ places) := by
  rw [ofDecimal]
  split
  · rename_i hzero
    have hzero : digits = 0 := hzero
    rw [hzero]
    exact (ofRatio_of_tiny negative (by rw [Nat.zero_mul]; exact Nat.pow_pos (by decide))).symm
  · rw [if_neg (by simp only; omega)]
    split
    · rename_i hfar
      exact (ofRatio_of_tiny negative (tiny_of_places (by simp only at hfar; omega))).symm
    · have hpower : (-(places : Int)).toNat = 0 := by omega
      have hplaces : (- -(places : Int)).toNat = places := by omega
      simp only [hpower, hplaces]
      rw [show Nat.pow 10 0 = 1 from rfl, Nat.mul_one]
      rfl

theorem Double.neg_ofRatio (num den : Nat) :
    (ofRatio false num den).neg = ofRatio true num den := by
  rw [ofRatio, ofRatio]
  cases Magnitude.ofRatio? num den <;> rfl

/-! ### A run in the freest form -/

section Run

variable {cs : List Char}

/-- **A run in the freest form** has no sign and no exponent: it is a numeral. -/
theorem Scientific.read?_run (h : ∀ c ∈ cs, isDigitOrPoint c = true) :
    read? cs = (Numeral.readUnsigned? false cs).map fun n =>
      ⟨false, n.whole, n.fraction, none⟩ := by
  have hunsigned : read? cs = readUnsigned? false cs := by
    rw [read?]
    · rintro rest rfl
      exact absurd (h '-' List.mem_cons_self) (by decide)
    · rintro rest rfl
      exact absurd (h '+' List.mem_cons_self) (by decide)
  have hpoint {c : Char} {rest part : List Char} (hpart : part.dropWhile Char.isDigit = c :: rest)
      (hsub : ∀ c ∈ part, c ∈ cs) : c = '.' := by
    have hmem := hsub c ((List.dropWhile_sublist _).subset (hpart ▸ List.mem_cons_self))
    have hdigit : c.isDigit = false := by
      simpa [hpart] using List.head?_dropWhile_not Char.isDigit part
    simpa [isDigitOrPoint, hdigit] using h c hmem
  rw [hunsigned, readUnsigned?, Numeral.readUnsigned?]
  generalize cs.takeWhile Char.isDigit = whole
  cases hrest : cs.dropWhile Char.isDigit with
  | nil => by_cases hnil : whole = [] <;> simp [readExponent?, hnil]
  | cons c fraction =>
    obtain rfl := hpoint hrest fun _ => id
    dsimp only
    cases hmore : fraction.dropWhile Char.isDigit with
    | nil =>
      have hall := List.dropWhile_eq_nil_iff.mp hmore
      have htake : fraction.takeWhile Char.isDigit = fraction := List.takeWhile_eq_self_iff.mpr hall
      rw [List.all_eq_true.mpr hall]
      by_cases hnil : whole ++ fraction = [] <;> simp [readExponent?, htake, hmore, hnil]
    -- a second point is left
    | cons c rest =>
      have hsub : ∀ c ∈ fraction, c ∈ cs := fun c hc =>
        (List.dropWhile_sublist _).subset (hrest ▸ List.mem_cons_of_mem _ hc)
      obtain rfl := hpoint hmore hsub
      have hall : fraction.all Char.isDigit = false := by
        refine Bool.eq_false_iff.mpr fun hall => ?_
        rw [List.dropWhile_eq_nil_iff.mpr (List.all_eq_true.mp hall)] at hmore
        exact absurd hmore (List.cons_ne_nil _ _).symm
      simp [readExponent?, hmore, hall]

theorem toLower_of_isDigitOrPoint {c : Char} (h : isDigitOrPoint c = true) : c.toLower = c := by
  have hbelow : c.toNat ≤ 57 := by
    rcases Bool.or_eq_true_iff.mp h with hdigit | hpoint
    · exact (Char.isDigit_iff_toNat.mp hdigit).2
    · rw [beq_iff_eq.mp hpoint]
      decide
  refine dif_neg fun hupper => ?_
  have habove : 65 ≤ c.toNat := UInt32.le_iff_toNat_le.mp hupper.1
  omega

/-- A run is no word. -/
theorem readWord?_run (negative : Bool) (h : ∀ c ∈ cs, isDigitOrPoint c = true) :
    readWord? negative cs = none := by
  have hlower : cs.map Char.toLower = cs := by
    rw [List.map_congr_left fun c hc => toLower_of_isDigitOrPoint (h c hc), List.map_id']
  have hletter {word : List Char} (hword : word.all isDigitOrPoint = false) : cs ≠ word := by
    rintro rfl
    exact Bool.false_ne_true (hword.symm.trans (List.all_eq_true.mpr h))
  simp only [readWord?, hlower]
  rw [if_neg (not_or.mpr ⟨hletter (by decide), hletter (by decide)⟩), if_neg (hletter (by decide))]

/-- The freest form gives a run no other number. -/
theorem readFree?_eq (h : ∀ c ∈ cs, isDigitOrPoint c = true) :
    readFree? cs = (Numeral.readUnsigned? false cs).map Numeral.value := by
  unfold readFree?
  rw [Scientific.read?_run h]
  cases hread : Numeral.readUnsigned? false cs with
  | some n =>
    obtain ⟨hsign, -⟩ := Numeral.readUnsigned?_eq_some_iff.mp hread
    simp only [Option.map_some, Scientific.toDouble, Scientific.toDecimal, Option.getD_none,
      Int.zero_sub, Double.ofDecimal_places, Numeral.value, hsign]
    rfl
  | none =>
    dsimp only [Option.map_none]
    split
    · exact absurd (h '-' List.mem_cons_self) (by decide)
    · exact absurd (h '+' List.mem_cons_self) (by decide)
    · exact readWord?_run false h

theorem readRun?_eq (cs : List Char) :
    readRun? cs = (Numeral.readUnsigned? false cs).map Numeral.value := by
  rw [readRun?]
  by_cases hall : ∀ c ∈ cs, isDigitOrPoint c = true
  · have htake : cs.takeWhile isDigitOrPoint = cs := List.takeWhile_eq_self_iff.mpr hall
    have hdrop : cs.dropWhile isDigitOrPoint = [] := List.dropWhile_eq_nil_iff.mpr hall
    rw [htake, hdrop, readFree?_eq hall]
    split
    · rename_i hnil
      rw [hnil]
      rfl
    · simp
  -- something else is left, and a numeral holds nothing else
  · have hdrop : cs.dropWhile isDigitOrPoint ≠ [] := mt List.dropWhile_eq_nil_iff.mp hall
    have hnone : Numeral.readUnsigned? false cs = none := by
      refine Option.eq_none_iff_forall_ne_some.mpr fun n hn => hall fun c hc => ?_
      have hwrites := (Numeral.readUnsigned?_eq_some_iff.mp hn).2
      simpa [isDigitOrPoint] using hwrites.isDigit_or hc
    rw [hnone, Option.map_none]
    split
    · rfl
    · simp

end Run

/-- The sign is no part of what a numeral is read from. -/
theorem Numeral.map_value_readUnsigned? (cs : List Char) :
    (readUnsigned? true cs).map value = ((readUnsigned? false cs).map value).map Double.neg := by
  simp only [readUnsigned?]
  cases cs.dropWhile Char.isDigit with
  | nil =>
    dsimp only
    split
    · rfl
    · exact congrArg some (Double.neg_ofRatio _ _).symm
  | cons c fraction =>
    dsimp only
    split
    · exact congrArg some (Double.neg_ofRatio _ _).symm
    · rfl

/-- **Reading in steps** is reading a numeral. -/
theorem readInSteps?_eq (s : String) : readInSteps? s = readNumber? s := by
  rw [readNumber?]
  by_cases hminus : ∃ rest, Text.trim s.toList = '-' :: rest
  · obtain ⟨rest, htrim⟩ := hminus
    rw [Numeral.read?_minus htrim, Numeral.map_value_readUnsigned?, ← readRun?_eq]
    simp only [readInSteps?, htrim]
  · rw [Numeral.read?_plain (not_exists.mp hminus), ← readRun?_eq, readInSteps?]
    split
    · exact absurd ⟨_, ‹_›⟩ hminus
    · rfl

/-! ### Recognition -/

/-- **Which texts are numbers.** A text is a number if it spells a decimal, and then its double is
the one to which the number is rounded that the decimal denotes: never what is no number. Reading in
steps, with a reader that takes more than decimals, comes to the same. -/
theorem numbers_are_decimals (s : String) :
    ((readNumber? s).isSome = true ↔ ∃ negative cs, SpellsDecimal s negative cs) ∧
      (∀ d, readNumber? s = some d ↔
        ∃ negative cs, SpellsDecimal s negative cs ∧
          Double.Rounds negative (decimalValue cs) d) ∧
      readNumber? s ≠ some .nan ∧
      readInSteps? s = readNumber? s := by
  have hread (d : Double) : readNumber? s = some d ↔
      ∃ negative cs, SpellsDecimal s negative cs ∧ Double.Rounds negative (decimalValue cs) d := by
    rw [readNumber?, Option.map_eq_some_iff]
    constructor
    · rintro ⟨n, hn, rfl⟩
      obtain ⟨cs, htrim, hwrites⟩ := Numeral.read?_eq_some_iff.mp hn
      exact ⟨n.negative, cs, ⟨htrim, hwrites.isDecimal⟩, hwrites.rounds⟩
    · rintro ⟨negative, cs, ⟨htrim, hdecimal⟩, hround⟩
      obtain ⟨n, rfl, hwrites⟩ := Numeral.exists_writes hdecimal negative
      exact ⟨n, Numeral.read?_eq_some_iff.mpr ⟨cs, htrim, hwrites⟩, hwrites.rounds.unique hround⟩
  refine ⟨?_, hread, ?_, readInSteps?_eq s⟩
  · rw [Option.isSome_iff_exists]
    constructor
    · rintro ⟨d, hd⟩
      obtain ⟨negative, cs, hspells, -⟩ := (hread d).mp hd
      exact ⟨negative, cs, hspells⟩
    · rintro ⟨negative, cs, hspells⟩
      obtain ⟨n, rfl, hwrites⟩ := Numeral.exists_writes hspells.decimal negative
      exact ⟨n.value, (hread _).mpr ⟨_, cs, hspells, hwrites.rounds⟩⟩
  · intro hnan
    obtain ⟨_, _, -, hround⟩ := (hread _).mp hnan
    cases hround

/-- A blank of two bytes and an ideographic one stand around a decimal that begins with its
point. -/
theorem numbers_are_decimals_half :
    SpellsDecimal "\u00a0-.5\u3000" true ".5".toList ∧ decimalValue ".5".toList = 1 / 2 ∧
      readNumber? "\u00a0-.5\u3000" = some (Double.ofRatio true 1 2) := by
  have hspells : SpellsDecimal "\u00a0-.5\u3000" true ".5".toList :=
    ⟨by decide, ⟨by simp, by decide, '5', by decide, by decide⟩⟩
  have hvalue : decimalValue ".5".toList = 1 / 2 := by
    change ((0 : ℕ) + ((5 : ℕ) + 0) / 10 : ℚ) = 1 / 2
    norm_num
  have hround : Double.Rounds true (1 / 2) (Double.ofRatio true 1 2) := by
    exact_mod_cast Double.rounds_ofRatio true 1 Nat.two_pos
  exact ⟨hspells, hvalue,
    ((numbers_are_decimals _).2.1 _).mpr ⟨true, _, hspells, hvalue.symm ▸ hround⟩⟩

/-- No plus sign, exponent, word, grouping or blank stands in a number, and no point without a
digit. -/
example : ["+1", "1e5", "inf", "NaN", "1,000", "1 2", "- 1", "--1", "1.2.3", "-.", ""].map
    readNumber? = List.replicate 11 none := by
  decide

/-- Halfway between two doubles the even one is taken. -/
example : readNumber? "9007199254740993" = some (Double.ofInt 9007199254740992) := by
  decide +kernel

end FeatureQuery
