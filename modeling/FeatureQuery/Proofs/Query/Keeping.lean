import FeatureQuery.Proofs.Query.Printing

/-!
# Nothing written is lost

A query is made of words, which are its operands and operators; blanks and parentheses stand between
them and keep them apart. `MadeOf words cs` says that a text is made of these words, in this order,
and of nothing else. The words of a tree (`Expr.words`) are those of the text that it was read from
(`Reads.madeOf`), since a split loses nothing and what is taken away around its sides are blanks and
parentheses; and they are those of the text that it is printed as (`Expr.madeOf_text`). So both
texts are the same when blanks and parentheses are left out (`parse_keeps_words`).
-/

namespace FeatureQuery

/-- Whether a character only keeps words apart: a blank or a parenthesis. -/
def isSeparator (c : Char) : Bool := Text.isBlank c || c == '(' || c == ')'

/-- The text without its blanks and parentheses, wherever they stand. -/
def bare (cs : List Char) : List Char := cs.filter fun c => !isSeparator c

theorem bare_append (cs ds : List Char) : bare (cs ++ ds) = bare cs ++ bare ds :=
  List.filter_append ..

theorem bare_eq_nil {gap : List Char} (h : ∀ c ∈ gap, isSeparator c = true) : bare gap = [] :=
  List.filter_eq_nil_iff.mpr (by simpa using h)

/-- The text is made of the words, in order, and of blanks and parentheses before, between and after
them. -/
inductive MadeOf : List String → List Char → Prop where
  /-- No word. -/
  | nil {gap : List Char} (separators : ∀ c ∈ gap, isSeparator c = true) : MadeOf [] gap
  /-- A word before the others. -/
  | cons {gap cs : List Char} {word : String} {words : List String}
      (separators : ∀ c ∈ gap, isSeparator c = true) (rest : MadeOf words cs) :
      MadeOf (word :: words) (gap ++ (word.toList ++ cs))

namespace MadeOf

variable {words more : List String} {cs ds : List Char} {c : Char}

theorem singleton (word : String) : MadeOf [word] word.toList := by
  have h : MadeOf [word] ([] ++ (word.toList ++ [])) := .cons (by simp) (.nil (by simp))
  rwa [List.nil_append, List.append_nil] at h

theorem cons_separator (hc : isSeparator c = true) (h : MadeOf words cs) :
    MadeOf words (c :: cs) := by
  cases h with
  | nil separators => exact .nil (List.forall_mem_cons.mpr ⟨hc, separators⟩)
  | @cons gap rest word words separators h =>
    rw [← List.cons_append]
    exact .cons (List.forall_mem_cons.mpr ⟨hc, separators⟩) h

/-- **Text after text**: the words of both, in order. -/
theorem append (h : MadeOf words cs) (h' : MadeOf more ds) : MadeOf (words ++ more) (cs ++ ds) := by
  induction h with
  | @nil gap separators =>
    induction gap with
    | nil => exact h'
    | cons c gap ih =>
      obtain ⟨hc, hgap⟩ := List.forall_mem_cons.mp separators
      exact (ih hgap).cons_separator hc
  | cons separators _ ih =>
    rw [List.append_assoc, List.append_assoc]
    exact .cons separators ih

theorem concat_separator (hc : isSeparator c = true) (h : MadeOf words cs) :
    MadeOf words (cs ++ [c]) := by
  have hlast : MadeOf [] [c] := .nil (by simpa using hc)
  simpa using h.append hlast

theorem group (h : MadeOf words cs) : MadeOf words ('(' :: cs ++ [')']) :=
  (h.cons_separator rfl).concat_separator rfl

/-- **What is taken away around a text** is no word. -/
theorem of_stripWrapping (h : MadeOf words (stripWrapping cs)) : MadeOf words cs := by
  have hblank : ∀ {c : Char}, Text.isBlank c = true → isSeparator c = true := fun hc => by
    simp [isSeparator, hc]
  exact FeatureQuery.of_stripWrapping (P := MadeOf words)
    (fun hc _ h => h.cons_separator (hblank hc)) (fun hc _ h => h.concat_separator (hblank hc))
    (fun _ h => h.group) h

/-- **An operator between two texts** is a word between their words. -/
theorem operator (h : MadeOf words cs) (h' : MadeOf more ds) (op : Operator) :
    MadeOf (words ++ op.text :: more) (cs ++ (op.text.toList ++ ds)) :=
  h.append ((singleton op.text).append h')

/-- **Without blanks and parentheses** a text is its words, one after the other. -/
theorem bare_eq (h : MadeOf words cs) : bare cs = bare (words.flatMap String.toList) := by
  induction h with
  | nil separators => exact bare_eq_nil separators
  | cons separators _ ih =>
    rw [bare_append, bare_append, bare_eq_nil separators, ih, List.nil_append, List.flatMap_cons,
      bare_append]

end MadeOf

/-! ### The words of a tree -/

namespace Expr

mutual

/-- The operands and operators of a tree, from left to right. -/
def words : Expr → List String
  | .compare op field value => [field, (Operator.compare op).text, value]
  | .like field pattern => [field, Operator.like.text, pattern]
  | .not operand => Operator.not.text :: words operand
  | .join connective operands => joinedWords connective operands

/-- The words of several trees, with the connective between them. -/
def joinedWords (connective : Connective) : List Expr → List String
  | [] => []
  | [e] => words e
  | e :: f :: rest =>
    words e ++ (Operator.join connective).text :: joinedWords connective (f :: rest)

end

mutual

/-- **The text of a tree** is made of the words of the tree. -/
theorem madeOf_text : ∀ e : Expr, MadeOf e.words e.text.toList
  | .compare op field value => by
    have htext : (text (.compare op field value)).toList =
        field.toList ++ [' '] ++ ((Operator.compare op).text.toList ++ ' ' :: value.toList) := by
      simp [text, Operator.text]
    rw [htext]
    exact ((MadeOf.singleton field).concat_separator rfl).operator
      ((MadeOf.singleton value).cons_separator rfl) (.compare op)
  | .like field pattern => by
    have htext : (text (.like field pattern)).toList =
        field.toList ++ [' '] ++ (Operator.like.text.toList ++ ' ' :: pattern.toList) := by
      simp [text, Operator.text]
    rw [htext]
    exact ((MadeOf.singleton field).concat_separator rfl).operator
      ((MadeOf.singleton pattern).cons_separator rfl) .like
  | .not operand => by
    rw [toList_text_not]
    exact (MadeOf.singleton _).append ((madeOf_text operand).group.cons_separator rfl)
  | .join connective operands => madeOf_joined connective operands

theorem madeOf_joined (connective : Connective) : ∀ es : List Expr,
    MadeOf (joinedWords connective es) (joined connective es).toList
  | [] => .nil (by simp [joined])
  | [e] => by
    rw [toList_joined_singleton]
    exact (madeOf_text e).group
  | e :: f :: rest => by
    have htext : (joined connective (e :: f :: rest)).toList =
        '(' :: (text e).toList ++ [')'] ++ [' '] ++ ((Operator.join connective).text.toList ++
          ' ' :: (joined connective (f :: rest)).toList) := by
      simp [toList_joined_cons_cons, Operator.text]
    rw [htext]
    exact ((madeOf_text e).group.concat_separator rfl).operator
      ((madeOf_joined connective (f :: rest)).cons_separator rfl) (.join connective)

end

end Expr

/-- **A text that reads as a tree** is made of the words of the tree. -/
theorem Reads.madeOf {cs : List Char} {e : Expr} (h : Reads cs e) : MadeOf e.words cs := by
  have hside : ∀ {cs : List Char},
      MadeOf [String.ofList (stripWrapping cs)] (stripWrapping cs) := fun {cs} => by
    simpa using MadeOf.singleton (String.ofList (stripWrapping cs))
  induction h with
  | join split left right ihl ihr =>
    rw [eq_append_of_findNextOperator split]
    exact ihl.of_stripWrapping.operator ihr.of_stripWrapping _
  | @not cs before after operand split left right ih =>
    -- what stands before the operator holds no word
    have hnone : MadeOf [] (stripWrapping before) := by
      rw [left]
      exact .nil (by simp)
    rw [eq_append_of_findNextOperator split]
    exact hnone.of_stripWrapping.operator ih.of_stripWrapping .not
  | like split left right =>
    rw [eq_append_of_findNextOperator split]
    exact hside.of_stripWrapping.operator hside.of_stripWrapping .like
  | compare split left right =>
    rw [eq_append_of_findNextOperator split]
    exact hside.of_stripWrapping.operator hside.of_stripWrapping (.compare _)

/-- **Reading keeps what was written.** A text that was read and the text of its tree are the same
but for blanks and parentheses; and both are made of the operands and operators of the tree, in
order, with nothing but blanks and parentheses around them. -/
theorem parse_keeps_words {query : String} {e : Expr} (h : parse query = .ok e) :
    bare query.toList = bare e.text.toList ∧
      MadeOf e.words query.toList ∧ MadeOf e.words e.text.toList := by
  have hquery : MadeOf e.words query.toList := (parse_eq_ok_iff.mp h).1.2.madeOf.of_stripWrapping
  exact ⟨hquery.bare_eq.trans e.madeOf_text.bare_eq.symm, hquery, e.madeOf_text⟩

/-- Blanks are missing here and too many there, a literal holds an operator and a parenthesis, and a
group is part of an operand. -/
theorem parse_keeps_words_spaced :
    let query := "not(( x>=1) )and(nombre like 'a or (' or ((y) = z (b=c)))"
    let e := Expr.join .and [.not (.compare .ge "x" "1"),
      .join .or [.like "nombre" "'a or ('", .compare .eq "y" "z (b=c)"]]
    parse query = .ok e ∧ bare query.toList = bare e.text.toList ∧
      MadeOf ["not", "x", ">=", "1", "and", "nombre", "like", "'a or ('", "or", "y", "=", "z (b=c)"]
        query.toList := by
  intro query e
  have hparse : parse query = .ok e := by decide +kernel
  obtain ⟨hbare, hquery, -⟩ := parse_keeps_words hparse
  exact ⟨hparse, hbare, hquery⟩

end FeatureQuery
