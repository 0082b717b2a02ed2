import FeatureQuery.Json.Escape
import FeatureQuery.Json.Number

/-!
# The tokens of a JSON text

A JSON text is read in two steps: into tokens here, and from tokens into a value in `Json.Reader`. A
token is a punctuation mark or a scalar value. Spaces, tabs, line feeds and carriage returns may
stand between tokens.
-/

namespace FeatureQuery.Json

/-- A token of a JSON text. -/
inductive Token where
  /-- The mark `[`. -/
  | openArray
  /-- The mark `]`. -/
  | closeArray
  /-- The mark that opens an object. -/
  | openObject
  /-- The mark that closes an object. -/
  | closeObject
  /-- The mark `,`. -/
  | comma
  /-- The mark `:`. -/
  | colon
  /-- A text, which may be the name of a member. -/
  | text (s : String)
  /-- Any other value that is neither an array nor an object. -/
  | scalar (value : Json)

/-- A blank between tokens. -/
def isSpace (c : Char) : Bool := c = ' ' || c = '\t' || c = '\n' || c = '\r'

/-- The first token of a text that begins with one, and what follows. -/
def Token.read? : List Char → Option (Token × List Char)
  | '[' :: rest => some (.openArray, rest)
  | ']' :: rest => some (.closeArray, rest)
  | '\x7b' :: rest => some (.openObject, rest)
  | '\x7d' :: rest => some (.closeObject, rest)
  | ',' :: rest => some (.comma, rest)
  | ':' :: rest => some (.colon, rest)
  | '"' :: rest => (readText? rest).map fun (body, rest) =>
      (.text (String.ofList body), rest)
  | 'n' :: 'u' :: 'l' :: 'l' :: rest => some (.scalar .null, rest)
  | 't' :: 'r' :: 'u' :: 'e' :: rest => some (.scalar (.bool true), rest)
  | 'f' :: 'a' :: 'l' :: 's' :: 'e' :: rest => some (.scalar (.bool false), rest)
  | cs => (readNumber? cs).map fun (n, rest) => (.scalar (.number n), rest)

/-! ### What is read gets shorter -/

theorem Token.length_lt_of_read? {cs rest : List Char} {t : Token}
    (h : Token.read? cs = some (t, rest)) : rest.length < cs.length := by
  unfold Token.read? at h
  split at h
  case h_7 =>
    obtain ⟨⟨text, mid⟩, ht, heq⟩ := Option.map_eq_some_iff.1 h
    simp only [Prod.mk.injEq] at heq
    obtain ⟨_, rfl⟩ := heq
    have := length_lt_of_readText? ht
    simp only [List.length_cons]
    omega
  case h_11 =>
    obtain ⟨⟨n, mid⟩, hn, heq⟩ := Option.map_eq_some_iff.1 h
    simp only [Prod.mk.injEq] at heq
    obtain ⟨_, rfl⟩ := heq
    exact length_lt_of_readNumber? hn
  all_goals
    simp only [Option.some.injEq, Prod.mk.injEq] at h
    obtain ⟨_, rfl⟩ := h
    simp only [List.length_cons]
    omega

/-- The tokens of a text. -/
def tokens? (cs : List Char) : Option (List Token) :=
  let body := cs.dropWhile isSpace
  if body = [] then some []
  else
    match _h : Token.read? body with
    | some (t, rest) => (tokens? rest).map (t :: ·)
    | none => none
termination_by cs.length
decreasing_by
  exact Nat.lt_of_lt_of_le (Token.length_lt_of_read? _h) (List.dropWhile_sublist _).length_le

end FeatureQuery.Json
