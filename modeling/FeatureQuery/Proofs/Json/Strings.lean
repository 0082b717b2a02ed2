import FeatureQuery.Json.Escape

/-!
# Texts read back

A text between double quotes is read back as it was written, whatever characters it holds and
whatever follows it (`readText?_escape`). The characters are written one by one, and each is read
back on its own (`readText?_escapeChar`). A line feed is written as an escape, and so what is
written stays on one line (`newline_notMem_escape`).
-/

namespace FeatureQuery.Json

/-- A digit below sixteen has its value. -/
theorem hexValue?_digitChar : ∀ n < 16, hexValue? (Nat.digitChar n) = some n := by
  decide

/-- Four hexadecimal digits of which only the last two count. -/
theorem readUnit?_digitChar {n : Nat} (h : n < 256) (rest : List Char) :
    readUnit? ('0' :: '0' :: Nat.digitChar (n / 16) :: Nat.digitChar (n % 16) :: rest) =
      some (n, rest) := by
  have hzero : hexValue? '0' = some 0 := rfl
  have hhigh := hexValue?_digitChar (n / 16) (by omega)
  have hlow := hexValue?_digitChar (n % 16) (by omega)
  simp only [readUnit?, hzero, hhigh, hlow, Option.bind_eq_bind, Option.bind_some]
  congr 2
  omega

/-- A control character is read back from its code unit. -/
theorem readEscape?_unit {c : Char} (h : c.toNat < 0x20) (rest : List Char) :
    readEscape? ('u' :: '0' :: '0' :: Nat.digitChar (c.toNat / 16) ::
      Nat.digitChar (c.toNat % 16) :: rest) = some (c, rest) := by
  rw [readEscape?, readCodePoint?, readUnit?_digitChar (by omega)]
  simp only [Option.bind_eq_bind, Option.bind_some]
  rw [if_pos (.inl (by omega)), Char.ofNat_toNat]

/-- A backslash is read with what it escapes. -/
theorem readText?_backslash {cs rest : List Char} {c : Char}
    (h : readEscape? cs = some (c, rest)) :
    readText? ('\\' :: cs) = (readText? rest).map fun (text, after) => (c :: text, after) := by
  rw [readText?, if_neg (by decide), if_pos rfl]
  split
  · rename_i heq
    rw [h] at heq
    cases heq
    rfl
  · rename_i heq
    rw [h] at heq
    cases heq

/-- **Every character is read back** from how it is written. -/
theorem readText?_escapeChar (c : Char) (rest : List Char) :
    readText? (escapeChar c ++ rest) =
      (readText? rest).map fun (text, after) => (c :: text, after) := by
  fun_cases escapeChar c with
  | case1 | case2 | case3 | case4 | case5 =>
    subst c
    exact readText?_backslash rfl
  | case6 _ _ _ _ _ h =>
    rw [← Char.ofNat_toNat c, h]
    exact readText?_backslash rfl
  | case7 _ _ _ _ _ _ h =>
    rw [← Char.ofNat_toNat c, h]
    exact readText?_backslash rfl
  | case8 => exact readText?_backslash (readEscape?_unit ‹_› rest)
  | case9 =>
    rw [List.singleton_append, readText?]
    simp only [*]
    rfl

/-- **A text is read back** up to its closing quote. -/
theorem readText?_escape (cs rest : List Char) :
    readText? (cs.flatMap escapeChar ++ '"' :: rest) = some (cs, rest) := by
  induction cs with
  | nil => rw [List.flatMap_nil, List.nil_append, readText?, if_pos rfl]
  | cons c cs ih => rw [List.flatMap_cons, List.append_assoc, readText?_escapeChar, ih]; rfl

/-- A digit below sixteen is no line feed. -/
theorem digitChar_ne_newline : ∀ n < 16, Nat.digitChar n ≠ '\n' := by
  decide

theorem newline_notMem_escapeChar (c : Char) : '\n' ∉ escapeChar c := by
  fun_cases escapeChar c with
  | case8 =>
    have hhigh := digitChar_ne_newline (c.toNat / 16) (by omega)
    have hlow := digitChar_ne_newline (c.toNat % 16) (by omega)
    simp [hhigh.symm, hlow.symm]
  | case9 _ _ hnewline => exact fun h => hnewline (List.mem_singleton.1 h).symm
  | _ => decide

/-- **A text is written on one line.** -/
theorem newline_notMem_escape (cs : List Char) : '\n' ∉ escape cs := by
  simp [escape, newline_notMem_escapeChar]

end FeatureQuery.Json
