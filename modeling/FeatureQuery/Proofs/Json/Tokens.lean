import FeatureQuery.Json.Token
import FeatureQuery.Proofs.Json.Numbers
import FeatureQuery.Proofs.Json.Strings

/-!
# The tokens of a value

The text of a value is read into the tokens of the value, and then what follows is read on
(`tokens?_chars`). Marks and texts are read whatever follows them. A number needs a mark or a blank
behind it, and one always follows where a number ends inside a value. The induction is on the value,
with its items and members; all that is asked of the value is that its numbers are read back. Such a
text holds no line feed (`newline_notMem_chars`).
-/

namespace FeatureQuery.Json

mutual

/-- The tokens of a value. -/
def tokens : Json → List Token
  | .null => [.scalar .null]
  | .bool b => [.scalar (.bool b)]
  | .number n => [.scalar (.number n)]
  | .string s => [.text s]
  | .array items => .openArray :: (itemTokens items ++ [.closeArray])
  | .object members => .openObject :: (memberTokens members ++ [.closeObject])

/-- The tokens of items, with commas between them. -/
def itemTokens : List Json → List Token
  | [] => []
  | [v] => tokens v
  | v :: w :: rest => tokens v ++ .comma :: itemTokens (w :: rest)

/-- The tokens of members, with commas between them. -/
def memberTokens : List (String × Json) → List Token
  | [] => []
  | [(name, v)] => .text name :: .colon :: tokens v
  | (name, v) :: m :: rest =>
    .text name :: .colon :: (tokens v ++ .comma :: memberTokens (m :: rest))

end

mutual

/-- The numbers that a value holds. -/
def numbers : Json → List JsonNumber
  | .null | .bool _ | .string _ => []
  | .number n => [n]
  | .array items => itemNumbers items
  | .object members => memberNumbers members

/-- The numbers that items hold. -/
def itemNumbers : List Json → List JsonNumber
  | [] => []
  | v :: rest => numbers v ++ itemNumbers rest

/-- The numbers that members hold. -/
def memberNumbers : List (String × Json) → List JsonNumber
  | [] => []
  | (_, v) :: rest => numbers v ++ memberNumbers rest

end

/-! ### One token -/

variable {cs rest : List Char} {c : Char}

theorem tokens?_nil : tokens? [] = some [] := by simp [tokens?]

/-- Blanks before a token do not count. -/
theorem tokens?_cons_space (h : isSpace c = true) (cs : List Char) :
    tokens? (c :: cs) = tokens? cs := by
  rw [tokens?.eq_def, tokens?.eq_def, List.dropWhile_cons_of_pos h]

/-- A text without its first token. -/
theorem tokens?_of_read? {t : Token} (h : Token.read? (c :: cs) = some (t, rest))
    (hspace : isSpace c = false) : tokens? (c :: cs) = (tokens? rest).map (t :: ·) := by
  rw [tokens?, List.dropWhile_cons_of_neg (by simp [hspace])]
  simp only [reduceCtorEq, if_false]
  split
  · rename_i heq
    rw [h] at heq
    cases heq
    rfl
  · rename_i heq
    rw [h] at heq
    cases heq

/-- A text in quotes is one token. -/
theorem tokens?_escape (s : String) (rest : List Char) :
    tokens? (escape s.toList ++ rest) = (tokens? rest).map (Token.text s :: ·) := by
  rw [escape, List.cons_append]
  refine tokens?_of_read? ?_ rfl
  rw [List.append_assoc, List.singleton_append, Token.read?, readText?_escape]
  simp only [Option.map_some, String.ofList_toList]

/-- No mark and no other scalar begins as a number does. -/
theorem Token.read?_of_readNumber? {n : JsonNumber} (h : readNumber? cs = some (n, rest)) :
    Token.read? cs = some (.scalar (.number n), rest) := by
  obtain ⟨c, cs, rfl, hc⟩ := exists_head_of_readNumber? h
  rw [Token.read?.eq_def]
  split
  case h_11 => rw [h]; rfl
  all_goals
    rename_i heq
    rw [(List.cons.inj heq).1] at hc
    exact absurd hc (by decide)

theorem isSpace_eq_false_of_isDigit (h : c.isDigit = true) : isSpace c = false := by
  rw [Bool.eq_false_iff]
  intro hspace
  simp only [isSpace, Bool.or_eq_true, decide_eq_true_eq] at hspace
  rcases hspace with ((rfl | rfl) | rfl) | rfl <;> exact absurd h (by decide)

/-- A number is one token. -/
theorem tokens?_number {n : JsonNumber} (hn : n.IsReread) (hrest : EndsNumber rest) :
    tokens? (n.text.toList ++ rest) = (tokens? rest).map (Token.scalar (.number n) :: ·) := by
  have hread := readNumber?_append hn hrest
  obtain ⟨c, cs, hcs, hc⟩ := exists_head_of_readNumber? hread
  rw [hcs] at hread ⊢
  refine tokens?_of_read? (Token.read?_of_readNumber? hread) ?_
  rcases hc with rfl | hc
  · rfl
  · exact isSpace_eq_false_of_isDigit hc

/-! ### A value -/

mutual

/-- **The text of a value has the tokens of the value**, whatever follows it. -/
theorem tokens?_chars (v : Json) (hv : ∀ n ∈ v.numbers, n.IsReread) {rest : List Char}
    (hrest : EndsNumber rest) : tokens? (v.chars ++ rest) = (tokens? rest).map (v.tokens ++ ·) :=
  match v with
  | .null => tokens?_of_read? rfl rfl
  | .bool true => tokens?_of_read? rfl rfl
  | .bool false => tokens?_of_read? rfl rfl
  | .number n => tokens?_number (hv n (by simp [numbers])) hrest
  | .string s => tokens?_escape s rest
  | .array items => by
    rw [chars, List.cons_append, tokens?_of_read? rfl rfl, List.append_assoc,
      List.singleton_append, tokens?_itemChars items hv (.cons rfl), tokens?_of_read? rfl rfl]
    simp [tokens, Function.comp_def]
  | .object members => by
    rw [chars, List.cons_append, tokens?_of_read? rfl rfl, List.append_assoc,
      List.singleton_append, tokens?_memberChars members hv (.cons rfl), tokens?_of_read? rfl rfl]
    simp [tokens, Function.comp_def]

theorem tokens?_itemChars (items : List Json) (hv : ∀ n ∈ itemNumbers items, n.IsReread)
    {rest : List Char} (hrest : EndsNumber rest) :
    tokens? (itemChars items ++ rest) = (tokens? rest).map (itemTokens items ++ ·) :=
  match items with
  | [] => by simp [itemChars, itemTokens]
  | [v] => tokens?_chars v (fun n hn => hv n (by simp [itemNumbers, hn])) hrest
  | v :: w :: others => by
    have hfirst := fun n hn => hv n (by rw [itemNumbers]; exact List.mem_append_left _ hn)
    have hothers := fun n hn => hv n (by rw [itemNumbers]; exact List.mem_append_right _ hn)
    rw [itemChars, List.append_assoc, List.cons_append, tokens?_chars v hfirst (.cons rfl),
      tokens?_of_read? rfl rfl, tokens?_itemChars (w :: others) hothers hrest]
    simp [itemTokens, Function.comp_def]

theorem tokens?_memberChars (members : List (String × Json))
    (hv : ∀ n ∈ memberNumbers members, n.IsReread) {rest : List Char} (hrest : EndsNumber rest) :
    tokens? (memberChars members ++ rest) = (tokens? rest).map (memberTokens members ++ ·) :=
  match members with
  | [] => by simp [memberChars, memberTokens]
  | [(name, v)] => by
    have hfirst := fun n hn => hv n (by rw [memberNumbers]; exact List.mem_append_left _ hn)
    rw [memberChars, List.append_assoc, tokens?_escape, List.cons_append, tokens?_of_read? rfl rfl,
      tokens?_chars v hfirst hrest]
    simp [memberTokens, Function.comp_def]
  | (name, v) :: m :: others => by
    have hfirst := fun n hn => hv n (by rw [memberNumbers]; exact List.mem_append_left _ hn)
    have hothers := fun n hn => hv n (by rw [memberNumbers]; exact List.mem_append_right _ hn)
    rw [memberChars, List.append_assoc, tokens?_escape, List.cons_append, tokens?_of_read? rfl rfl,
      List.append_assoc, List.cons_append, tokens?_chars v hfirst (.cons rfl),
      tokens?_of_read? rfl rfl, tokens?_memberChars (m :: others) hothers hrest]
    simp [memberTokens, Function.comp_def]

end

/-! ### One line -/

mutual

/-- **A value is written on one line.** -/
theorem newline_notMem_chars (v : Json) (hv : ∀ n ∈ v.numbers, n.IsReread) : '\n' ∉ v.chars :=
  match v with
  | .null | .bool true | .bool false => by decide
  | .number n => fun hmem => by
    have hn : n.IsReread := hv n (by simp [numbers])
    rcases mem_of_readNumber? hn hmem with hchar | hnil
    · exact absurd hchar (by decide)
    · cases hnil
  | .string s => newline_notMem_escape s.toList
  | .array items => by
    have hitems := newline_notMem_itemChars items hv
    simp [chars, hitems]
  | .object members => by
    have hmembers := newline_notMem_memberChars members hv
    simp [chars, hmembers]

theorem newline_notMem_itemChars (items : List Json) (hv : ∀ n ∈ itemNumbers items, n.IsReread) :
    '\n' ∉ itemChars items :=
  match items with
  | [] => List.not_mem_nil
  | [v] => newline_notMem_chars v fun n hn => hv n (by simp [itemNumbers, hn])
  | v :: w :: others => by
    have hfirst := newline_notMem_chars v fun n hn =>
      hv n (by rw [itemNumbers]; exact List.mem_append_left _ hn)
    have hothers := newline_notMem_itemChars (w :: others) fun n hn =>
      hv n (by rw [itemNumbers]; exact List.mem_append_right _ hn)
    simp [itemChars, hfirst, hothers]

theorem newline_notMem_memberChars (members : List (String × Json))
    (hv : ∀ n ∈ memberNumbers members, n.IsReread) : '\n' ∉ memberChars members :=
  match members with
  | [] => List.not_mem_nil
  | [(name, v)] => by
    have hfirst := newline_notMem_chars v fun n hn => hv n (by simp [memberNumbers, hn])
    simp [memberChars, newline_notMem_escape, hfirst]
  | (name, v) :: m :: others => by
    have hfirst := newline_notMem_chars v fun n hn =>
      hv n (by rw [memberNumbers]; exact List.mem_append_left _ hn)
    have hothers := newline_notMem_memberChars (m :: others) fun n hn =>
      hv n (by rw [memberNumbers]; exact List.mem_append_right _ hn)
    simp [memberChars, newline_notMem_escape, hfirst, hothers]

end

end FeatureQuery.Json
