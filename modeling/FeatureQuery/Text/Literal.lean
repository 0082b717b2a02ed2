/-!
# Texts between single quotes

A quoted text is written between single quotes, with every quote inside it written twice: `quote`
writes it and `unquote` reads it. `closeLiteral` finds where such a text ends when only its opening
quote has been read. Main statements: unquoting undoes quoting (`unquote_quote`), and a text splits
at the closing quote without loss (`eq_append_of_closeLiteral`).
-/

namespace FeatureQuery.Text

/-- Writes every single quote twice. -/
def double : List Char → List Char
  | [] => []
  | c :: cs => if c = '\'' then c :: c :: double cs else c :: double cs

/-- Reads two single quotes in a row as one, from the left. A quote on its own stays. -/
def undouble : List Char → List Char
  | [] => []
  | '\'' :: '\'' :: cs => '\'' :: undouble cs
  | c :: cs => c :: undouble cs

/-- The text between single quotes. -/
def quote (cs : List Char) : List Char := '\'' :: (double cs ++ ['\''])

/-- The text that stands between single quotes. A text without a quote at each end stays as it
is, and so does a single quote alone. -/
def unquote : List Char → List Char
  | [] => []
  | c :: cs =>
    if c = '\'' ∧ cs.getLast? = some '\'' then undouble cs.dropLast else c :: cs

/-- Splits the text after an opening quote at the quote that closes the literal: what stands before
that quote, and what comes after it. A doubled quote belongs to the literal. -/
def closeLiteral : List Char → Option (List Char × List Char)
  | [] => none
  | '\'' :: '\'' :: cs => (closeLiteral cs).map fun (body, rest) => ('\'' :: '\'' :: body, rest)
  | c :: cs =>
    if c = '\'' then some ([], cs)
    else (closeLiteral cs).map fun (body, rest) => (c :: body, rest)

/-! ### Quoting and unquoting -/

theorem undouble_double (cs : List Char) : undouble (double cs) = cs := by
  induction cs with
  | nil => rfl
  | cons c cs ih => by_cases h : c = '\'' <;> simp [double, undouble, h, ih]

/-- **Quoting loses nothing.** -/
theorem unquote_quote (cs : List Char) : unquote (quote cs) = cs := by
  simp [quote, unquote, undouble_double]

/-! ### Where a literal ends -/

/-- Nothing is lost at the closing quote. -/
theorem eq_append_of_closeLiteral {cs body rest : List Char}
    (h : closeLiteral cs = some (body, rest)) : cs = body ++ '\'' :: rest := by
  fun_induction closeLiteral cs generalizing body with
  | case1 => simp at h
  | case2 cs ih =>
    obtain ⟨⟨b, r⟩, hb, heq⟩ := Option.map_eq_some_iff.1 h
    simp only [Prod.mk.injEq] at heq
    obtain ⟨rfl, rfl⟩ := heq
    simp [ih hb]
  | case3 cs =>
    simp only [Option.some.injEq, Prod.mk.injEq] at h
    obtain ⟨rfl, rfl⟩ := h
    rfl
  | case4 c cs _ hc ih =>
    obtain ⟨⟨b, r⟩, hb, heq⟩ := Option.map_eq_some_iff.1 h
    simp only [Prod.mk.injEq] at heq
    obtain ⟨rfl, rfl⟩ := heq
    simp [ih hb]

/-- The rest of a text after a literal is shorter than the text. -/
theorem length_lt_of_closeLiteral {cs body rest : List Char}
    (h : closeLiteral cs = some (body, rest)) : rest.length < cs.length := by
  rw [eq_append_of_closeLiteral h]
  simp
  omega

end FeatureQuery.Text
