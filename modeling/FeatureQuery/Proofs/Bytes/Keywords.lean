import FeatureQuery.Proofs.Bytes.Operators

/-!
# Rewriting operands by bytes

The search for the next `like` jumps behind literals and compares bytes elsewhere (`keywordStep`);
the operand after it is told by its length, and what follows is searched afresh. All positions are
boundaries, the rest is shorter each time, and the operands that are changed are those of
`Wildcards.mapOperands` (`rewrite_eq`).
-/

namespace FeatureQuery.Bytes

open Text Wildcards

/-! ### Words in bytes -/

section Words

variable {word cs before after : List Char}

/-- A text begins with an ASCII word if its bytes begin with those of the word. -/
theorem isPrefix_bytes_iff (hword : ∀ q ∈ word, q.toNat < 0x80) :
    bytes word <+: bytes cs ↔ word <+: cs := by
  induction word generalizing cs with
  | nil => simp [bytes]
  | cons q word ih =>
    obtain ⟨hq, hletters⟩ := List.forall_mem_cons.mp hword
    cases cs with
    | nil => simp [bytes, utf8EncodeChar_of_ascii hq]
    | cons c cs =>
      have hfirst := getElem?_bytes_append_cons hq [] cs (c := c)
      by_cases hc : c = q
      · subst hc
        rw [bytes_cons, bytes_cons, utf8EncodeChar_of_ascii hq, List.singleton_append,
          List.singleton_append, List.cons_prefix_cons, List.cons_prefix_cons, ih hletters]
        exact and_congr (iff_of_true rfl rfl) Iff.rfl
      · refine iff_of_false (fun hpre => hc (hfirst.mp ?_)) fun hpre => hc ?_
        · obtain ⟨rest, hrest⟩ := hpre
          rw [bytes_cons, utf8EncodeChar_of_ascii hq, List.singleton_append] at hrest
          rw [List.nil_append, ← hrest]
          rfl
        · exact (List.cons_prefix_cons.mp hpre).1.symm

theorem drop_bytes_append (before after : List Char) :
    (bytes (before ++ after)).drop (byteLength before) = bytes after := by
  rw [bytes_append, ← length_bytes, List.drop_left]

end Words

/-! ### The search for the keyword -/

/-- What the search for the keyword does at a byte: it goes on behind a literal, and stops behind a
keyword that no letter touches. -/
def keywordStep (cs : List Char) (_ : Unit) (p : Nat) (_ : UInt8) :
    Except Fault (Move Unit (Option Nat)) := do
  if ← opensLiteral cs p then
    return behind (← closingQuote cs p)
  else if bytes Operator.like.text.toList <+: (bytes cs).drop p then
    let stop := p + 4
    let touched ← inWord cs p stop
    return if touched then .go () (p + 1) else .stop (some stop)
  else
    return .go () (p + 1)

/-- The position after the first keyword. -/
def findKeyword (cs : List Char) : Except Fault (Option Nat) :=
  scan (bytes cs) (keywordStep cs) (fun _ => none) () 0

section Keyword

variable {cs before after tail rest : List Char} {p : Nat} {byte : UInt8} {c : Char}

theorem keywordStep_quote {close? : Option Nat} (hopens : opensLiteral cs p = .ok true)
    (hcloses : closingQuote cs p = .ok close?) :
    keywordStep cs () p byte = .ok (behind close?) := by
  rw [keywordStep, hopens, hcloses]
  rfl

theorem keywordStep_plain (hopens : opensLiteral cs p = .ok false)
    (hword : ¬ bytes Operator.like.text.toList <+: (bytes cs).drop p) :
    keywordStep cs () p byte = .ok (.go () (p + 1)) := by
  rw [keywordStep, hopens, ok_bind, if_neg (by simp), if_neg hword]
  rfl

theorem byteLength_like : byteLength Operator.like.text.toList = 4 := by decide

/-- The keyword is written in ASCII. -/
theorem like_ascii : ∀ q ∈ Operator.like.text.toList, q.toNat < 0x80 := by
  simp [Operator.text]

theorem keywordStep_word (hopens : opensLiteral (before ++ after) (byteLength before) = .ok false)
    (hafter : after = Operator.like.text.toList ++ rest) :
    keywordStep (before ++ after) () (byteLength before) byte =
      .ok (if Operator.touchesLetter before.getLast? rest.head? then .go () (byteLength before + 1)
        else .stop (some (byteLength before + 4))) := by
  have hword : bytes Operator.like.text.toList <+:
      (bytes (before ++ after)).drop (byteLength before) := by
    rw [drop_bytes_append, isPrefix_bytes_iff like_ascii, hafter]
    exact List.prefix_append _ _
  have hletters := inWord_append before Operator.like.text.toList rest
  rw [← hafter] at hletters
  rw [keywordStep, hopens, ok_bind, if_neg (by simp), if_pos hword]
  rw [byteLength_like] at hletters
  simp only [hletters, ok_bind]
  rfl

theorem passesInside_keywordStep : PassesInside cs (keywordStep cs) :=
  fun _ p byte hsplit hbyte => by
    refine keywordStep_plain (opensLiteral_inside hsplit) ?_
    rintro ⟨more, hmore⟩
    -- the first byte of the word would stand there
    refine ne_of_splitAt?_eq_none (q := 'l') (by decide) hsplit ?_
    rw [← List.head?_drop, ← hmore]
    rfl

/-- Where no keyword stands on its own, the search goes on. -/
theorem keywordStep_of_keyword?_eq_none
    (hopens : opensLiteral (before ++ c :: tail) (byteLength before) = .ok false)
    (hat : keyword? before.getLast? .outside (c :: tail) = none) :
    keywordStep (before ++ c :: tail) () (byteLength before) byte =
      .ok (.go () (byteLength before + 1)) := by
  by_cases hword : Operator.like.text.toList <+: c :: tail
  · obtain ⟨rest, hrest⟩ := hword
    rw [keywordStep_word hopens hrest.symm, if_pos]
    -- a keyword that no letter touches would have been found
    refine Bool.of_not_eq_false fun halone => ?_
    rw [keyword?_eq_some_iff.mpr ⟨by simp, hrest.symm, halone⟩] at hat
    cases hat
  · refine keywordStep_plain hopens fun hpre => hword ?_
    rwa [drop_bytes_append, isPrefix_bytes_iff like_ascii] at hpre

/-- **The search by bytes** finds the keyword that the search by characters finds. -/
theorem scan_keywordStep (before after : List Char) :
    scan (bytes (before ++ after)) (keywordStep (before ++ after)) (fun _ => none) ()
        (byteLength before) =
      .ok ((splitKeyword? before.getLast? .outside after).map fun (found, _) =>
        byteLength (before ++ found)) := by
  -- by induction on the length: a literal is taken away as a whole
  induction hn : after.length using Nat.strongRecOn generalizing before after with
  | ind n ih =>
    subst hn
    cases after with
    | nil =>
      rw [List.append_nil, scan_end (no_byte before)]
      rfl
    | cons c tail =>
      obtain ⟨byte, hbyte⟩ := exists_byte before c tail
      by_cases hquote : c = '\'' ∧ FeatureQuery.opensLiteral before.getLast? = true
      · obtain ⟨rfl, hopens⟩ := hquote
        cases hclose : closeLiteral tail with
        | none =>
          rw [scan_stop hbyte (keywordStep_quote (opensLiteral_quote tail hopens)
              (closingQuote_eq_none before hclose)),
            splitKeyword?_literal hopens, hclose]
          rfl
        | some parts =>
          obtain ⟨body, rest⟩ := parts
          have hrest := ih rest.length (Nat.lt_succ_of_lt (length_lt_of_closeLiteral hclose))
            (before ++ '\'' :: (body ++ ['\''])) rest rfl
          have hlast : (before ++ '\'' :: (body ++ ['\''])).getLast? = some '\'' := by
            rw [← List.cons_append, ← List.append_assoc, List.getLast?_concat]
          have hsplit : before ++ '\'' :: (body ++ ['\'']) ++ rest = before ++ '\'' :: tail := by
            rw [eq_append_of_closeLiteral hclose]
            simp
          rw [hlast, hsplit] at hrest
          rw [scan_enclosed (q := '\'') rfl fun _ _ => keywordStep_quote
              (opensLiteral_quote tail hopens) (closingQuote_eq_some before hclose),
            hrest, splitKeyword?_literal hopens, hclose, Option.bind_some, Option.map_map]
          simp only [Function.comp_def, List.append_assoc, List.cons_append, List.nil_append]
      · have happostrophe : c = '\'' → FeatureQuery.opensLiteral before.getLast? = false := by
          intro hc
          simpa [hc] using hquote
        have hopens := opensLiteral_plain tail happostrophe
        cases hat : keyword? before.getLast? .outside (c :: tail) with
        | some rest =>
          obtain ⟨-, heq, halone⟩ := keyword?_eq_some_iff.mp hat
          have hstep : keywordStep _ () _ byte = _ := keywordStep_word hopens heq
          rw [halone] at hstep
          have hlength := byteLength_append before Operator.like.text.toList
          rw [byteLength_like] at hlength
          rw [scan_stop hbyte hstep, splitKeyword?_of_keyword? hat, ← hlength]
          rfl
        | none =>
          have hrest := ih tail.length (Nat.lt_succ_self _) (before ++ [c]) tail rfl
          rw [List.append_assoc, List.singleton_append, List.getLast?_concat] at hrest
          rw [scan_next passesInside_keywordStep hbyte
              (keywordStep_of_keyword?_eq_none hopens hat),
            hrest, splitKeyword?_plain hat happostrophe, Option.map_map]
          simp only [Function.comp_def, List.append_assoc, List.singleton_append]

/-- **The keyword** is found at a boundary. -/
theorem findKeyword_eq (cs : List Char) :
    findKeyword cs =
      .ok ((splitKeyword? none .outside cs).map fun (found, _) => byteLength found) :=
  scan_keywordStep [] cs

end Keyword

/-! ### The operand -/

/-- The position of the first character of a kind. -/
def findChar (kind : Char → Bool) : List Char → Option Nat
  | [] => none
  | c :: cs => if kind c then some 0 else (findChar kind cs).map (c.utf8Size + ·)

/-- The length of the operand a text begins with. A literal that never ends is an operand as a
whole. -/
def operandLength (cs : List Char) : Except Fault Nat :=
  if cs.head? = some '\'' then do
    let close? ← closingQuote cs 0
    return close?.elim (byteLength cs) (· + 1)
  else return (findChar endsOperand cs).getD (byteLength cs)

/-- The length of the blanks a text begins with, and the operand after them. -/
def splitOperand (cs : List Char) : Except Fault (Nat × List Char) := do
  let trimmed := trimStart cs
  let lead ← minus (byteLength cs) (byteLength trimmed)
  let operand ← upTo trimmed (← operandLength trimmed)
  return (lead, operand)

/-- Changes the operand of every `like`. -/
def rewrite (change : List Char → List Char) (cs : List Char) : Except Fault (List Char) := do
  match ← findKeyword cs with
  | none => return cs
  | some stop =>
    let before ← upTo cs stop
    let rest ← onward cs stop
    let (lead, operand) ← splitOperand rest
    let blanks ← upTo rest lead
    let more ← onward rest (lead + byteLength operand)
    if _h : more.length < cs.length then
      let changed ← rewrite change more
      return before ++ blanks ++ change operand ++ changed
    else throw .standstill
termination_by cs.length

/-- The query with patterns in the place of display wildcards. -/
def toPattern (query : String) : Except Fault String :=
  (rewrite toPatternOperand query.toList).map String.ofList

/-- The query with display wildcards in the place of patterns. -/
def toDisplay (query : String) : Except Fault String :=
  (rewrite toDisplayOperand query.toList).map String.ofList

theorem findChar_getD (kind : Char → Bool) (cs : List Char) :
    (findChar kind cs).getD (byteLength cs) = byteLength (cs.takeWhile fun c => !kind c) := by
  induction cs with
  | nil => rfl
  | cons c cs ih =>
    rw [findChar]
    cases hc : kind c with
    | true => simp [hc]
    | false =>
      rw [List.takeWhile_cons_of_pos (by simp [hc]), byteLength_cons, byteLength_cons, ← ih]
      cases findChar kind cs <;> rfl

theorem operandLength_eq (cs : List Char) :
    operandLength cs = .ok (byteLength (Wildcards.splitOperand cs).1) := by
  rw [operandLength]
  split
  · rename_i hquote
    obtain ⟨tail, rfl⟩ := List.head?_eq_some_iff.mp hquote
    have hcloses := closingQuote_eq [] tail
    rw [List.nil_append, byteLength_nil] at hcloses
    rw [hcloses, ok_bind, Wildcards.splitOperand]
    cases hclose : closeLiteral tail with
    | none => rfl
    | some parts => exact congrArg Except.ok (byteLength_enclosed [] '\'' parts.1 rfl).symm
  · rename_i hplain
    rw [findChar_getD]
    unfold Wildcards.splitOperand
    split
    · simp at hplain
    · rfl

/-- **The operand** is cut off at boundaries. -/
theorem splitOperand_eq (cs : List Char) :
    splitOperand cs = .ok (byteLength (cs.takeWhile isBlank),
      (Wildcards.splitOperand (trimStart cs)).1) := by
  have hlength := byteLength_append (cs.takeWhile isBlank) (trimStart cs)
  rw [takeWhile_append_trimStart] at hlength
  have hlead : minus (byteLength cs) (byteLength (trimStart cs)) =
      .ok (byteLength (cs.takeWhile isBlank)) := by
    rw [minus_of_le (by omega), hlength, Nat.add_sub_cancel]
  have hcut := upTo_append (Wildcards.splitOperand (trimStart cs)).1
    (Wildcards.splitOperand (trimStart cs)).2
  rw [splitOperand_append] at hcut
  simp only [splitOperand, hlead, ok_bind, operandLength_eq, hcut]
  rfl

/-- What follows an operand is shorter than the text. -/
theorem length_rest_lt {cs before rest : List Char}
    (h : splitKeyword? none .outside cs = some (before, rest)) :
    (Wildcards.splitOperand (trimStart rest)).2.length < cs.length := by
  have hlt := length_lt_of_splitKeyword? h
  have hsplit := congrArg List.length (splitOperand_append (trimStart rest))
  have htrim := length_trimStart_le rest
  rw [List.length_append] at hsplit
  omega

/-- **Operands are changed** without faults, and as by `mapOperands`. -/
theorem rewrite_eq (change : List Char → List Char) (cs : List Char) :
    rewrite change cs = .ok (mapOperands change cs) := by
  induction hn : cs.length using Nat.strongRecOn generalizing cs with
  | ind n ih =>
    subst hn
    rw [rewrite, findKeyword_eq, ok_bind]
    cases hfind : splitKeyword? none .outside cs with
    | none =>
      rw [mapOperands_of_none hfind]
      rfl
    | some found =>
      obtain ⟨before, rest⟩ := found
      have hlt := length_rest_lt hfind
      have hrest := ih _ hlt _ rfl
      rw [mapOperands_of_some hfind]
      obtain rfl := eq_append_of_splitKeyword? hfind
      -- the rest is made of the blanks, the operand and what follows
      have hparts : rest = rest.takeWhile isBlank ++ ((Wildcards.splitOperand (trimStart rest)).1 ++
          (Wildcards.splitOperand (trimStart rest)).2) := by
        rw [splitOperand_append, takeWhile_append_trimStart]
      have hblanks : upTo rest (byteLength (rest.takeWhile isBlank)) =
          .ok (rest.takeWhile isBlank) := by
        have hcut := upTo_append (rest.takeWhile isBlank) (trimStart rest)
        rwa [takeWhile_append_trimStart] at hcut
      have hmore : onward rest (byteLength (rest.takeWhile isBlank) +
          byteLength (Wildcards.splitOperand (trimStart rest)).1) =
            .ok (Wildcards.splitOperand (trimStart rest)).2 := by
        have hcut := onward_append (rest.takeWhile isBlank ++
          (Wildcards.splitOperand (trimStart rest)).1) (Wildcards.splitOperand (trimStart rest)).2
        rwa [List.append_assoc, ← hparts, byteLength_append] at hcut
      simp only [Option.map_some, upTo_append, onward_append, ok_bind, splitOperand_eq, hblanks,
        hmore, dif_pos hlt, hrest]
      rfl

theorem toPattern_eq (query : String) : toPattern query = .ok (Wildcards.toPattern query) := by
  rw [toPattern, rewrite_eq]
  rfl

theorem toDisplay_eq (query : String) : toDisplay query = .ok (Wildcards.toDisplay query) := by
  rw [toDisplay, rewrite_eq]
  rfl

end FeatureQuery.Bytes
