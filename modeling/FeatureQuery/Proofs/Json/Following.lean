import Mathlib.Data.List.Induction
import FeatureQuery.Json.Reader
import FeatureQuery.Proofs.Json.Tokens
import FeatureQuery.Proofs.Number.Plain
import FeatureQuery.Proofs.Query.Apart

/-!
# What follows a text

A text that is read stays the beginning of what is read when more is written behind it, unless the
more goes on with a number (`tokens?_append`). So, where a text denotes a value, the longer text
denotes the same value if the rest has no token, and none at all otherwise (`read?_append`). For a
single blank this may be turned around: nothing that could not be read before can be read because a
blank follows it (`tokens?_concat_blank`), since no token ends with a blank. Blanks that JSON does
not know as such, like a no-break space, are refused wherever they stand between tokens.

Each reader comes with two lemmas, one for what it reads and one for what it refuses, from the code
units of an escape up to the tokens of a text.
-/

namespace FeatureQuery.Json

open Scientific (readDigits? readExponent?)

variable {cs ds tail rest : List Char} {c : Char}

/-! ### Blanks -/

theorem isDigit_of_isBlank (hc : Text.isBlank c = true) : c.isDigit = false := by
  rw [Bool.eq_false_iff]
  intro hdigit
  simp [Text.isBlank_eq_false_of_isDigit hdigit] at hc

/-- No blank stands in a number. -/
theorem EndsNumber.of_isBlank (hc : Text.isBlank c = true) : EndsNumber (c :: rest) := by
  refine .cons ?_
  simp [isNumberChar, isDigit_of_isBlank hc, ne_of_isBlank hc (d := '-') rfl,
    ne_of_isBlank hc (d := '+') rfl, ne_of_isBlank hc (d := '.') rfl,
    ne_of_isBlank hc (d := 'e') rfl, ne_of_isBlank hc (d := 'E') rfl]

/-- The blanks of JSON are blanks. -/
theorem isBlank_of_isSpace (hc : isSpace c = true) : Text.isBlank c = true := by
  simp only [isSpace, Bool.or_eq_true, decide_eq_true_eq] at hc
  rcases hc with ((rfl | rfl) | rfl) | rfl <;> rfl

theorem hexValue?_of_isBlank (hc : Text.isBlank c = true) : hexValue? c = none := by
  have hdigit := isDigit_of_isBlank hc
  simp only [Text.isBlank, Bool.or_eq_true, Bool.and_eq_true, decide_eq_true_eq, beq_iff_eq] at hc
  have hlower : ¬ ('a' ≤ c ∧ c ≤ 'f') := by
    intro h
    have hcode : 97 ≤ c.toNat ∧ c.toNat ≤ 102 := h
    omega
  have hupper : ¬ ('A' ≤ c ∧ c ≤ 'F') := by
    intro h
    have hcode : 65 ≤ c.toNat ∧ c.toNat ≤ 70 := h
    omega
  rw [hexValue?, if_neg (by simp [hdigit]), if_neg hlower, if_neg hupper]

/-- A blank at the end of a text stands behind the characters at its start that are no blanks. -/
theorem exists_of_concat_eq (start : List Char) (hc : Text.isBlank c = true)
    (h : cs ++ [c] = start ++ rest) (hstart : start.all (fun d => !Text.isBlank d) = true) :
    ∃ tail, rest = tail ++ [c] ∧ cs = start ++ tail := by
  rcases List.append_eq_append_iff.mp h with ⟨more, rfl, hmore⟩ | ⟨tail, rfl, rfl⟩
  · cases more with
    | nil => exact ⟨[], by simpa using hmore.symm, by simp⟩
    | cons d more =>
      obtain ⟨rfl, -⟩ := List.cons.inj hmore
      simp [hc] at hstart
  · exact ⟨tail, rfl, rfl⟩

/-! ### Numbers -/

section Numbers

variable (hrest : EndsNumber rest)
include hrest

/-- A character of a number stands at the start of the text if it does with more behind it. -/
theorem exists_of_append_eq_cons {ds : List Char} (hc : isNumberChar c = true)
    (h : cs ++ rest = c :: ds) : ∃ tail, cs = c :: tail ∧ ds = tail ++ rest := by
  cases cs with
  | nil =>
    have hhead : rest.head? = some c := by rw [← List.nil_append rest, h]; rfl
    exact (hrest.head?_ne hc hhead).elim
  | cons d cs =>
    obtain ⟨rfl, rfl⟩ := List.cons.inj h
    exact ⟨cs, rfl, rfl⟩

theorem readDigits?_append_eq_none (h : readDigits? cs = none) :
    readDigits? (cs ++ rest) = none := by
  rw [readDigits?] at h ⊢
  rw [takeWhile_isDigit_append cs hrest]
  split at h
  · exact if_pos ‹_›
  · cases h

theorem readWhole?_append_eq_none (h : readWhole? cs = none) :
    readWhole? (cs ++ rest) = none := by
  rw [Option.eq_none_iff_forall_ne_some]
  rintro ⟨digits, tail⟩ hread
  obtain ⟨c, cs', heq, hc⟩ := exists_digit_of_readWhole? hread
  obtain ⟨cs, rfl, -⟩ := exists_of_append_eq_cons hrest (by simp [isNumberChar, hc]) heq
  by_cases hzero : c = '0'
  · subst hzero
    cases h
  · have hdigits : ∀ ds, readWhole? (c :: ds) = readDigits? (c :: ds) := by
      intro ds
      rw [readWhole?]
      simp [hzero]
    rw [List.cons_append, hdigits, ← List.cons_append,
      readDigits?_append_eq_none hrest (hdigits cs ▸ h)] at hread
    cases hread

theorem readFraction?_append_eq_none (h : readFraction? cs = none) :
    readFraction? (cs ++ rest) = none := by
  rw [readFraction?.eq_def] at h
  split at h
  · exact readDigits?_append_eq_none hrest h
  · cases h

theorem readExponent?_append_eq_none (h : readExponent? cs = none) :
    readExponent? (cs ++ rest) = none := by
  cases cs with
  | nil => cases h
  | cons c cs =>
    by_cases hc : c = 'e' ∨ c = 'E'
    · unfold readExponent? at h ⊢
      simp only [List.cons_append, if_pos hc] at h ⊢
      -- the exponent has a sign with more behind it exactly if it has one without
      split
      · rename_i digits heq
        obtain ⟨ds, rfl, rfl⟩ := exists_of_append_eq_cons hrest rfl heq
        rw [readDigits?_append_eq_none hrest (Option.map_eq_none_iff.mp h), Option.map_none]
      · rename_i digits heq
        obtain ⟨ds, rfl, rfl⟩ := exists_of_append_eq_cons hrest rfl heq
        rw [readDigits?_append_eq_none hrest (Option.map_eq_none_iff.mp h), Option.map_none]
      · rename_i hminus hplus
        split at h
        · exact absurd rfl (hminus _)
        · exact absurd rfl (hplus _)
        · rw [readDigits?_append_eq_none hrest (Option.map_eq_none_iff.mp h), Option.map_none]
    · rw [readExponent?_of_not hc] at h
      cases h

/-- The parts of a number are read one after the other, and the first one that is refused is refused
with the text behind it too. -/
theorem readUnsigned?_append_eq_none {negative : Bool} (h : readUnsigned? negative cs = none) :
    readUnsigned? negative (cs ++ rest) = none := by
  simp only [readUnsigned?, Option.bind_eq_bind] at h ⊢
  cases hwhole : readWhole? cs with
  | none => rw [readWhole?_append_eq_none hrest hwhole, Option.bind_none]
  | some whole =>
    rw [hwhole, Option.bind_some] at h
    rw [readWhole?_append hwhole hrest, Option.bind_some]
    cases hfraction : readFraction? whole.2 with
    | none => simp only [readFraction?_append_eq_none hrest hfraction, Option.bind_none]
    | some fraction =>
      simp only [hfraction, Option.bind_some] at h
      simp only [readFraction?_append hfraction hrest, Option.bind_some]
      cases hexponent : readExponent? fraction.2 with
      | none => simp only [readExponent?_append_eq_none hrest hexponent, Option.bind_none]
      | some exponent =>
        simp only [hexponent, Option.bind_some] at h
        simp only [readExponent?_append hexponent hrest, Option.bind_some]
        simpa using h

/-- **What is no number** is none with more behind it. -/
theorem readNumber?_append_eq_none (h : readNumber? cs = none) :
    readNumber? (cs ++ rest) = none := by
  rw [Option.eq_none_iff_forall_ne_some]
  rintro ⟨n, tail⟩ hread
  obtain ⟨c, cs', heq, hc⟩ := exists_head_of_readNumber? hread
  have hnumber : isNumberChar c = true := by
    rcases hc with rfl | hc
    · rfl
    · simp [isNumberChar, hc]
  obtain ⟨cs, rfl, -⟩ := exists_of_append_eq_cons hrest hnumber heq
  by_cases hminus : c = '-'
  · subst hminus
    have hnone : readNumber? ('-' :: cs ++ rest) = none := readUnsigned?_append_eq_none hrest h
    rw [hread] at hnone
    cases hnone
  · have hunsigned : ∀ ds, readNumber? (c :: ds) = readUnsigned? false (c :: ds) := by
      intro ds
      rw [readNumber?]
      simp [hminus]
    rw [List.cons_append, hunsigned, ← List.cons_append,
      readUnsigned?_append_eq_none hrest (hunsigned cs ▸ h)] at hread
    cases hread

end Numbers

/-! ### Texts in quotes -/

theorem readUnit?_append {unit : Nat} (h : readUnit? cs = some (unit, tail)) (rest : List Char) :
    readUnit? (cs ++ rest) = some (unit, tail ++ rest) := by
  unfold readUnit? at h
  split at h
  · simp only [Option.bind_eq_bind, Option.bind_eq_some_iff, Option.some.injEq, Prod.mk.injEq] at h
    obtain ⟨w, hw, x, hx, y, hy, z, hz, rfl, rfl⟩ := h
    simp [readUnit?, hw, hx, hy, hz]
  · cases h

theorem readUnit?_concat_eq_none (hc : Text.isBlank c = true) (h : readUnit? cs = none) :
    readUnit? (cs ++ [c]) = none := by
  have hhex := hexValue?_of_isBlank hc
  match cs with
  | [] | [_] | [_, _] => rfl
  | [x, y, z] => simp [readUnit?, hhex]
  | w :: x :: y :: z :: cs => simpa [readUnit?, Option.bind_eq_none_iff] using h

theorem readCodePoint?_append {d : Char} (h : readCodePoint? cs = some (d, tail))
    (rest : List Char) : readCodePoint? (cs ++ rest) = some (d, tail ++ rest) := by
  simp only [readCodePoint?, Option.bind_eq_bind, Option.bind_eq_some_iff] at h ⊢
  obtain ⟨⟨unit, mid⟩, hunit, h⟩ := h
  refine ⟨_, readUnit?_append hunit rest, ?_⟩
  simp only at h ⊢
  split_ifs at h ⊢
  · simp_all
  · split at h
    · simp only [Option.bind_eq_some_iff] at h
      obtain ⟨⟨low, last⟩, hlow, h⟩ := h
      simp only [List.cons_append, readUnit?_append hlow rest, Option.bind_some]
      split_ifs at h ⊢
      simp_all
    · cases h

theorem readCodePoint?_concat_eq_none (hc : Text.isBlank c = true) (h : readCodePoint? cs = none) :
    readCodePoint? (cs ++ [c]) = none := by
  simp only [readCodePoint?, Option.bind_eq_bind] at h ⊢
  cases hunit : readUnit? cs with
  | none => rw [readUnit?_concat_eq_none hc hunit, Option.bind_none]
  | some first =>
    obtain ⟨unit, mid⟩ := first
    simp only [hunit, Option.bind_some] at h
    simp only [readUnit?_append hunit [c], Option.bind_some]
    split_ifs at h ⊢
    · split
      · rename_i low heq
        -- the blank is not part of the second half of a pair
        obtain ⟨after, rfl, rfl⟩ := exists_of_concat_eq ['\\', 'u'] hc heq (by rfl)
        simp only [List.cons_append, List.nil_append] at h
        cases hlow : readUnit? after with
        | none => rw [readUnit?_concat_eq_none hc hlow, Option.bind_none]
        | some second =>
          simp only [hlow, Option.bind_some] at h
          simpa [readUnit?_append hlow [c]] using h
      · rfl
    · rfl

theorem readEscape?_append {d : Char} (h : readEscape? cs = some (d, tail)) (rest : List Char) :
    readEscape? (cs ++ rest) = some (d, tail ++ rest) := by
  unfold readEscape? at h
  split at h
  case h_9 => exact readCodePoint?_append h rest
  case h_10 => cases h
  all_goals
    cases h
    rfl

theorem readEscape?_concat_eq_none (hc : Text.isBlank c = true) (h : readEscape? cs = none) :
    readEscape? (cs ++ [c]) = none := by
  rw [readEscape?.eq_def]
  split <;> rename_i heq
  case h_10 => rfl
  all_goals obtain ⟨tail, rfl, rfl⟩ := exists_of_concat_eq [_] hc heq (by rfl)
  case h_9 => exact readCodePoint?_concat_eq_none hc h
  all_goals cases h

/-- **A text in quotes** ends at its closing quote, whatever follows. -/
theorem readText?_append {text : List Char} (h : readText? cs = some (text, tail))
    (rest : List Char) : readText? (cs ++ rest) = some (text, tail ++ rest) := by
  fun_induction readText? cs generalizing text with
  | case1 => cases h
  | case2 cs =>
    cases h
    rw [List.cons_append, readText?, if_pos rfl]
  | case3 cs d after hread hquote ih =>
    obtain ⟨⟨text, tail⟩, htext, heq⟩ := Option.map_eq_some_iff.mp h
    cases heq
    rw [List.cons_append, readText?_backslash (readEscape?_append hread rest), ih htext]
    rfl
  | case4 => cases h
  | case5 => cases h
  | case6 c cs hquote hescape hcontrol ih =>
    obtain ⟨⟨text, tail⟩, htext, heq⟩ := Option.map_eq_some_iff.mp h
    cases heq
    rw [List.cons_append, readText?, if_neg hquote, if_neg hescape, if_neg hcontrol, ih htext]
    rfl

/-- A text in quotes that does not end is not ended by a blank. -/
theorem readText?_concat_eq_none (hc : Text.isBlank c = true) (h : readText? cs = none) :
    readText? (cs ++ [c]) = none := by
  fun_induction readText? cs with
  | case1 =>
    rw [List.nil_append, readText?, if_neg (ne_of_isBlank hc rfl), if_neg (ne_of_isBlank hc rfl)]
    split_ifs
    · rfl
    · rw [readText?, Option.map_none]
  | case2 => cases h
  | case3 cs d after hread hquote ih =>
    rw [List.cons_append, readText?_backslash (readEscape?_append hread [c]),
      ih (Option.map_eq_none_iff.mp h), Option.map_none]
  | case4 cs hread hquote =>
    rw [List.cons_append, readText?, if_neg (by decide), if_pos rfl]
    split
    · rename_i heq
      rw [readEscape?_concat_eq_none hc hread] at heq
      cases heq
    · rfl
  | case5 d cs hquote hescape hcontrol =>
    rw [List.cons_append, readText?, if_neg hquote, if_neg hescape, if_pos hcontrol]
  | case6 d cs hquote hescape hcontrol ih =>
    rw [List.cons_append, readText?, if_neg hquote, if_neg hescape, if_neg hcontrol,
      ih (Option.map_eq_none_iff.mp h), Option.map_none]

/-! ### Tokens -/

/-- No token begins with a blank. -/
theorem Token.read?_of_isBlank (hc : Text.isBlank c = true) (cs : List Char) :
    Token.read? (c :: cs) = none := by
  rw [Token.read?.eq_def]
  split <;> rename_i heq
  case h_11 =>
    rw [Option.map_eq_none_iff, Option.eq_none_iff_forall_ne_some]
    rintro ⟨n, rest⟩ hread
    obtain ⟨d, ds, heq, hd⟩ := exists_head_of_readNumber? hread
    obtain ⟨rfl, -⟩ := List.cons.inj heq
    rcases hd with rfl | hd
    · cases hc
    · simp [isDigit_of_isBlank hc] at hd
  all_goals
    obtain ⟨rfl, -⟩ := List.cons.inj heq
    cases hc

/-- **A token is read in the same way** whatever follows it, unless that goes on with a number. -/
theorem Token.read?_append {t : Token} (h : Token.read? cs = some (t, tail))
    (hrest : EndsNumber rest) : Token.read? (cs ++ rest) = some (t, tail ++ rest) := by
  rw [Token.read?.eq_def] at h
  split at h
  case h_7 =>
    obtain ⟨⟨text, after⟩, htext, heq⟩ := Option.map_eq_some_iff.mp h
    cases heq
    rw [List.cons_append, Token.read?, readText?_append htext rest]
    rfl
  case h_11 =>
    obtain ⟨⟨n, after⟩, hnumber, heq⟩ := Option.map_eq_some_iff.mp h
    cases heq
    exact Token.read?_of_readNumber? (readNumber?_append hnumber hrest)
  all_goals
    cases h
    rfl

/-- **No token is ended by a blank** that was none before. -/
theorem Token.read?_concat_eq_none (hc : Text.isBlank c = true) (h : Token.read? cs = none) :
    Token.read? (cs ++ [c]) = none := by
  rw [Token.read?.eq_def]
  split <;> rename_i heq
  case h_7 =>
    obtain ⟨tail, rfl, rfl⟩ := exists_of_concat_eq ['"'] hc heq rfl
    have htext : readText? tail = none := Option.map_eq_none_iff.mp h
    rw [readText?_concat_eq_none hc htext, Option.map_none]
  case h_11 =>
    have hnumber : readNumber? cs = none := by
      rw [Option.eq_none_iff_forall_ne_some]
      rintro ⟨n, rest⟩ hread
      rw [Token.read?_of_readNumber? hread] at h
      cases h
    rw [readNumber?_append_eq_none (.of_isBlank hc) hnumber, Option.map_none]
  case h_8 =>
    obtain ⟨tail, rfl, rfl⟩ := exists_of_concat_eq ['n', 'u', 'l', 'l'] hc heq rfl
    cases h
  case h_9 =>
    obtain ⟨tail, rfl, rfl⟩ := exists_of_concat_eq ['t', 'r', 'u', 'e'] hc heq rfl
    cases h
  case h_10 =>
    obtain ⟨tail, rfl, rfl⟩ := exists_of_concat_eq ['f', 'a', 'l', 's', 'e'] hc heq rfl
    cases h
  all_goals
    obtain ⟨tail, rfl, rfl⟩ := exists_of_concat_eq [_] hc heq (by rfl)
    cases h

/-! ### The tokens of a text -/

theorem tokens?_of_read?_eq_none (h : Token.read? (c :: cs) = none) (hspace : isSpace c = false) :
    tokens? (c :: cs) = none := by
  rw [tokens?, List.dropWhile_cons_of_neg (by simp [hspace])]
  simp only [reduceCtorEq, if_false]
  split
  · rename_i heq
    rw [h] at heq
    cases heq
  · rfl

/-- **From one token to the next**: what holds of the end of a text, and is kept by a blank, by a
token and by what is no token, holds of every text. -/
theorem tokens_induction {P : List Char → Prop} (nil : P [])
    (space : ∀ {c : Char} {cs : List Char}, isSpace c = true → P cs → P (c :: cs))
    (token : ∀ {c : Char} {cs tail : List Char} {t : Token}, isSpace c = false →
      Token.read? (c :: cs) = some (t, tail) → P tail → P (c :: cs))
    (refused : ∀ {c : Char} {cs : List Char}, isSpace c = false →
      Token.read? (c :: cs) = none → P (c :: cs)) (cs : List Char) : P cs := by
  induction hn : cs.length using Nat.strongRecOn generalizing cs with
  | ind n ih =>
    subst hn
    cases cs with
    | nil => exact nil
    | cons c cs =>
      cases hspace : isSpace c with
      | true => exact space hspace (ih cs.length (by simp) cs rfl)
      | false =>
        cases hread : Token.read? (c :: cs) with
        | none => exact refused hspace hread
        | some found =>
          have hlt : found.2.length < (c :: cs).length := Token.length_lt_of_read? hread
          exact token hspace hread (ih _ hlt found.2 rfl)

/-- A blank before a text does not count if JSON knows it as one, and is refused otherwise. -/
theorem tokens?_cons_blank (hc : Text.isBlank c = true) (cs : List Char) :
    tokens? (c :: cs) = if isSpace c then tokens? cs else none := by
  split_ifs with hspace
  · exact tokens?_cons_space hspace cs
  · exact tokens?_of_read?_eq_none (Token.read?_of_isBlank hc cs) (by simpa using hspace)

/-- **A blank behind a text** does not count if JSON knows it as one, and is refused otherwise. -/
theorem tokens?_concat_blank (hc : Text.isBlank c = true) (cs : List Char) :
    tokens? (cs ++ [c]) = if isSpace c then tokens? cs else none := by
  induction cs using tokens_induction with
  | nil => exact tokens?_cons_blank hc []
  | space hspace ih =>
    rw [List.cons_append, tokens?_cons_space hspace, ih, tokens?_cons_space hspace]
  | token hspace hread ih =>
    have hmore := Token.read?_append hread (.of_isBlank hc : EndsNumber [c])
    rw [List.cons_append] at hmore ⊢
    rw [tokens?_of_read? hmore hspace, ih, tokens?_of_read? hread hspace]
    split_ifs <;> rfl
  | refused hspace hread =>
    have hmore := Token.read?_concat_eq_none hc hread
    rw [List.cons_append] at hmore ⊢
    rw [tokens?_of_read?_eq_none hmore hspace, tokens?_of_read?_eq_none hread hspace, ite_self]

/-- **More behind a text** brings its tokens behind those of the text, unless it goes on with a
number. -/
theorem tokens?_append {ts : List Token} (h : tokens? cs = some ts) (hrest : EndsNumber rest) :
    tokens? (cs ++ rest) = (tokens? rest).map (ts ++ ·) := by
  induction cs using tokens_induction generalizing ts with
  | nil =>
    rw [tokens?_nil] at h
    cases h
    simp
  | space hspace ih =>
    rw [tokens?_cons_space hspace] at h
    rw [List.cons_append, tokens?_cons_space hspace, ih h]
  | token hspace hread ih =>
    rw [tokens?_of_read? hread hspace] at h
    obtain ⟨us, hus, rfl⟩ := Option.map_eq_some_iff.mp h
    have hmore := Token.read?_append hread hrest
    rw [List.cons_append] at hmore ⊢
    rw [tokens?_of_read? hmore hspace, ih hus]
    simp [Function.comp_def]
  | refused hspace hread =>
    rw [tokens?_of_read?_eq_none hread hspace] at h
    cases h

/-- A text has no token when nothing is left of it without the blanks that JSON knows. -/
theorem tokens?_eq_nil_iff : tokens? cs = some [] ↔ cs.all isSpace = true := by
  rw [List.all_eq_true, ← List.dropWhile_eq_nil_iff, tokens?.eq_def]
  by_cases hnil : cs.dropWhile isSpace = []
  · simp [hnil]
  · simp only [hnil, if_false, iff_false]
    split
    · simp
    · exact Option.some_ne_none _ |>.symm

/-! ### The value of a text -/

theorem read?_ofList (cs : List Char) :
    read? (String.ofList cs) =
      (tokens? cs).bind fun ts => ((Reading.value []).run ts).bind Reading.result? := by
  rw [read?, String.toList_ofList]
  rfl

/-- **More behind a text that denotes a value** is refused, unless it has no token. -/
theorem read?_append {v : Json} (h : read? (String.ofList cs) = some v) (hrest : EndsNumber rest) :
    read? (String.ofList (cs ++ rest)) = if rest.all isSpace then some v else none := by
  rw [read?_ofList] at h
  obtain ⟨ts, hts, h⟩ := Option.bind_eq_some_iff.mp h
  obtain ⟨reading, hrun, hresult⟩ := Option.bind_eq_some_iff.mp h
  -- the value is complete behind the text, and no token may follow a complete value
  have hreading : reading = .complete v [] := by
    unfold Reading.result? at hresult
    split at hresult
    · cases hresult
      rfl
    · cases hresult
  subst hreading
  rw [read?_ofList, tokens?_append hts hrest]
  split_ifs with hspaces
  · rw [tokens?_eq_nil_iff.mpr hspaces]
    simp [hrun, Reading.result?]
  · cases hmore : tokens? rest with
    | none => rfl
    | some us =>
      cases us with
      | nil => exact absurd (tokens?_eq_nil_iff.mp hmore) hspaces
      | cons t us =>
        have hnone : (Reading.complete v []).run (t :: us) = none := by cases t <;> rfl
        simp [Reading.run_append, hrun, hnone]

/-- A text has the tokens of a text with blanks before it. -/
theorem tokens?_of_blanks_append {lead : List Char} {ts : List Token}
    (hlead : ∀ c ∈ lead, Text.isBlank c = true) (h : tokens? (lead ++ cs) = some ts) :
    tokens? cs = some ts := by
  induction lead with
  | nil => exact h
  | cons c lead ih =>
    obtain ⟨hc, hlead⟩ := List.forall_mem_cons.mp hlead
    rw [List.cons_append, tokens?_cons_blank hc] at h
    split_ifs at h
    exact ih hlead h

/-- A text has the tokens of a text with blanks behind it. -/
theorem tokens?_of_append_blanks {trail : List Char} {ts : List Token}
    (htrail : ∀ c ∈ trail, Text.isBlank c = true) (h : tokens? (cs ++ trail) = some ts) :
    tokens? cs = some ts := by
  induction trail using List.reverseRecOn with
  | nil => simpa using h
  | append_singleton trail c ih =>
    obtain ⟨htrail, hc⟩ := List.forall_mem_append.mp htrail
    rw [← List.append_assoc, tokens?_concat_blank (hc c (List.mem_singleton.mpr rfl))] at h
    split_ifs at h
    exact ih htrail h

/-- **A text denotes the value** of a text with blanks around it. -/
theorem read?_of_blanks {v : Json} {lead trail : List Char}
    (hlead : ∀ c ∈ lead, Text.isBlank c = true) (htrail : ∀ c ∈ trail, Text.isBlank c = true)
    (h : read? (String.ofList (lead ++ (cs ++ trail))) = some v) :
    read? (String.ofList cs) = some v := by
  rw [read?_ofList] at h ⊢
  obtain ⟨ts, hts, hrun⟩ := Option.bind_eq_some_iff.mp h
  have htokens := tokens?_of_append_blanks htrail (tokens?_of_blanks_append hlead hts)
  rw [htokens]
  exact hrun

end FeatureQuery.Json
