import FeatureQuery.Proofs.Bytes.Groups

/-!
# Operators by bytes

The search for an operator of a tier goes from byte to byte and jumps behind groups and literals as
a whole (`operatorStep`); at each other position where the text can be cut it asks for an operator
there (`operatorAt`). The cursor, which counts the parentheses one by one, finds the same
(`findOperator_eq`): nothing is found in a group (`findOperatorFrom_open`) nor in a literal
(`findOperatorFrom_inside`).

In a balanced text the three searches agree (`groups_agree`). A parenthesis outside all literals
opens a group which the search for the closing one finds, at the place where the depth is what it
was before, with a balanced text between them; and the search for an operator passes over no
operator that lies outside all groups and literals.
-/

namespace FeatureQuery

/-! ### Passing over groups and literals -/

section Passing

variable {tier : Tier} {k : Cursor} {c : Char} {cs tail : List Char}

/-- Nothing is found at a character that is no plain one. -/
theorem findOperatorFrom_cons {k' : Cursor} (hat : operatorAt? tier k (c :: cs) = none)
    (hnext : k.next c = some k') :
    findOperatorFrom tier k (c :: cs) =
      (findOperatorFrom tier k' cs).map (Split.prepend [c]) := by
  rw [findOperatorFrom, hat, hnext]
  rfl

theorem operatorAt?_inside (hk : k.quoting = .inside) : operatorAt? tier k (c :: cs) = none := by
  have hplain : k.isPlain c = false := by
    by_cases hc : c = '\'' <;> simp [Cursor.isPlain, Quoting.next, hk, hc]
  rw [operatorAt?, hplain]
  rfl

/-- **In a literal nothing is found**: the search goes on behind its closing quote. -/
theorem findOperatorFrom_inside (tier : Tier) (hk : k.quoting = .inside) (cs : List Char) :
    findOperatorFrom tier k cs = (Text.closeLiteral cs).bind fun (body, rest) =>
      (findOperatorFrom tier ⟨some '\'', k.depth, .ended⟩ rest).map
        (Split.prepend (body ++ ['\''])) := by
  fun_induction Text.closeLiteral cs generalizing k with
  | case1 => rfl
  | case2 cs ih =>
    have hpair : operatorAt? tier ⟨some '\'', k.depth, .ended⟩ ('\'' :: cs) = none := by
      simp [operatorAt?, Cursor.isPlain, Quoting.next]
    rw [findOperatorFrom_cons (operatorAt?_inside hk) (Cursor.next_inside hk), if_pos rfl,
      findOperatorFrom_cons hpair (Cursor.next_ended_quote rfl), ih rfl]
    cases Text.closeLiteral cs with
    | none => rfl
    | some parts =>
      simp only [Option.map_some, Option.bind_some, Option.map_map]
      rfl
  | case3 cs _ =>
    rw [findOperatorFrom_cons (operatorAt?_inside hk) (Cursor.next_inside hk), if_pos rfl]
    rfl
  | case4 c cs _ hc ih =>
    rw [findOperatorFrom_cons (operatorAt?_inside hk) (Cursor.next_inside hk), if_neg hc, ih rfl]
    cases Text.closeLiteral cs with
    | none => rfl
    | some parts =>
      simp only [Option.map_some, Option.bind_some, Option.map_map]
      rfl

/-- No operator begins with a parenthesis or a quote. -/
theorem operatorAt?_eq_none_of_mem (hc : c ∈ ['(', ')', '\'']) :
    operatorAt? tier k (c :: cs) = none := by
  rw [operatorAt?]
  split
  · simp only [List.mem_cons, List.not_mem_nil, or_false] at hc
    obtain rfl | rfl | rfl := hc <;> cases tier <;> rfl
  · rfl

/-- Nothing is found in a literal, and nothing at all if it does not end. -/
theorem findOperatorFrom_quote (tier : Tier) (hk : k.OutsideBefore (some '\''))
    (opens : opensLiteral k.previous = true) :
    findOperatorFrom tier k ('\'' :: tail) = (Text.closeLiteral tail).bind fun (body, rest) =>
      (findOperatorFrom tier ⟨some '\'', k.depth, .ended⟩ rest).map
        (Split.prepend ('\'' :: (body ++ ['\'']))) := by
  rw [findOperatorFrom_cons (operatorAt?_eq_none_of_mem (by simp)) (hk.next_quote opens),
    findOperatorFrom_inside tier rfl]
  cases Text.closeLiteral tail with
  | none => rfl
  | some parts =>
    simp only [Option.bind_some, Option.map_map]
    rfl

/-- **In a group nothing is found**: the search goes on behind its closing parenthesis. -/
theorem findOperatorFrom_open (tier : Tier) (hq : k.quoting ≠ .inside) (tail : List Char) :
    findOperatorFrom tier k ('(' :: tail) = (closeGroup .inGroup tail).bind fun (inside, rest) =>
      (findOperatorFrom tier ⟨some ')', k.depth, .outside⟩ rest).map
        (Split.prepend ('(' :: (inside ++ [')']))) := by
  have hshift : Cursor.Shifted (k.depth + 1) .inGroup ⟨some '(', k.depth + 1, .outside⟩ :=
    ⟨(Nat.zero_add _).symm, rfl, rfl, rfl⟩
  rw [findOperatorFrom_cons (operatorAt?_eq_none_of_mem (by simp)) (Cursor.next_open hq)]
  cases hclose : closeGroup .inGroup tail with
  | none =>
    obtain ⟨k', hrun⟩ := exists_run_of_closeGroup_eq_none hclose
    obtain ⟨l, -, -, hfind⟩ := findOperatorFrom_inGroup tier hshift hrun
    have hnone := hfind []
    rw [List.append_nil] at hnone
    rw [hnone]
    rfl
  | some parts =>
    obtain ⟨inside, rest⟩ := parts
    obtain rfl := eq_append_of_closeGroup hclose
    obtain ⟨k', hrun, hstop⟩ := exists_run_of_closeGroup hclose
    obtain ⟨hd, hq'⟩ := Cursor.outside_of_next_eq_none hstop
    obtain ⟨l, -, hs, hfind⟩ := findOperatorFrom_inGroup tier hshift hrun
    have hld : l.depth = k.depth + 1 := by rw [hs.depth, hd, Nat.zero_add]
    have hlq : l.quoting ≠ .inside := hs.quoting ▸ hq'
    rw [hfind, findOperatorFrom_cons (operatorAt?_eq_none_of_mem (by simp))
      (Cursor.next_close_succ hlq hld), Option.bind_some, Option.map_map, Option.map_map]
    refine congrArg (fun f => Option.map f _) (funext fun s => ?_)
    simp [Split.prepend]

end Passing

namespace Bytes

open Text

/-! ### An operator at a position -/

/-- An operator and where it stands. -/
structure Found where
  /-- The operator. -/
  operator : Operator
  /-- Its position. -/
  start : Nat
  /-- The position after it. -/
  stop : Nat
  deriving DecidableEq

/-- The operator at which a text splits, with its positions. -/
def Found.ofSplit (s : Split) : Found := ⟨s.operator, s.start, s.stop⟩

/-- The operator of a tier that the text from a position on begins with, and its length. Nothing is
read where the text cannot be cut. -/
def tokenAt (cs : List Char) (p : Nat) (tier : Tier) : Except Fault (Option (Operator × Nat)) :=
  match splitAt? cs p with
  | none => return none
  | some (_, after) =>
    match tier.operators.findSome? fun op => (op.strip? after).map fun rest => (op, rest) with
    | none => return none
    | some (op, rest) => do
      let length ← minus (byteLength after) (byteLength rest)
      return some (op, length)

/-- Whether a letter touches the text between two positions. -/
def inWord (cs : List Char) (start stop : Nat) : Except Fault Bool := do
  let before ← upTo cs start
  let after ← onward cs stop
  return Operator.touchesLetter before.getLast? after.head?

/-- The operator of a tier that stands at a position, on its own if it is a word. -/
def operatorAt (tier : Tier) (cs : List Char) (p : Nat) : Except Fault (Option Found) := do
  if (splitAt? cs p).isSome then
    match ← tokenAt cs p tier with
    | none => return none
    | some (op, length) =>
      let stop := p + length
      if op.isWord then
        let touched ← inWord cs p stop
        return if touched then none else some ⟨op, p, stop⟩
      else return some ⟨op, p, stop⟩
  else return none

theorem operatorAt_inside {tier : Tier} {cs : List Char} {p : Nat} (h : splitAt? cs p = none) :
    operatorAt tier cs p = .ok none := by
  rw [operatorAt, h]
  rfl

theorem inWord_append (before piece after : List Char) :
    inWord (before ++ (piece ++ after)) (byteLength before)
        (byteLength before + byteLength piece) =
      .ok (Operator.touchesLetter before.getLast? after.head?) := by
  rw [inWord, upTo_append, ← List.append_assoc, ← byteLength_append, onward_append]
  rfl

theorem tokenAt_append (tier : Tier) (before after : List Char) :
    tokenAt (before ++ after) (byteLength before) tier =
      .ok ((tier.operators.findSome? fun op => (op.strip? after).map fun rest => (op, rest)).map
        fun (op, _) => (op, byteLength op.text.toList)) := by
  rw [tokenAt, splitAt?_append]
  cases hfind : tier.operators.findSome? fun op =>
      (op.strip? after).map fun rest => (op, rest) with
  | none =>
    simp only [hfind]
    rfl
  | some found =>
    obtain ⟨op, rest⟩ := found
    obtain ⟨_, -, hmap⟩ := List.exists_of_findSome?_eq_some hfind
    obtain ⟨_, hstrip, heq⟩ := Option.map_eq_some_iff.mp hmap
    cases heq
    have hlength : byteLength after = byteLength op.text.toList + byteLength rest := by
      rw [Operator.eq_append_of_strip? hstrip, byteLength_append]
    have hminus : minus (byteLength after) (byteLength rest) = .ok (byteLength op.text.toList) := by
      rw [minus_of_le (by omega), hlength, Nat.add_sub_cancel]
    simp only [hfind, hminus, ok_bind]
    rfl

/-- **Where the text can be cut** the operator is the one that is read there. -/
theorem operatorAt_append (tier : Tier) (before after : List Char) :
    operatorAt tier (before ++ after) (byteLength before) =
      .ok ((tier.read? before.getLast? after).map fun (op, rest) =>
        Found.ofSplit ⟨before, op, rest⟩) := by
  rw [operatorAt, splitAt?_append, Option.isSome_some, if_pos rfl, tokenAt_append, ok_bind,
    Tier.read?]
  cases hfind : tier.operators.findSome? fun op =>
      (op.strip? after).map fun rest => (op, rest) with
  | none => rfl
  | some found =>
    obtain ⟨op, rest⟩ := found
    obtain ⟨_, -, hmap⟩ := List.exists_of_findSome?_eq_some hfind
    obtain ⟨_, hstrip, heq⟩ := Option.map_eq_some_iff.mp hmap
    cases heq
    obtain rfl := Operator.eq_append_of_strip? hstrip
    simp only [Option.map_some, inWord_append, ok_bind, Option.bind_eq_bind, Option.bind_some]
    cases op.isWord <;> cases Operator.touchesLetter before.getLast? rest.head? <;> rfl

/-! ### The search for an operator -/

/-- Behind what closes a group or a literal, if anything does. -/
def behind {α : Type} : Option Nat → Move Unit (Option α)
  | some close => .go () (close + 1)
  | none => .stop none

/-- What the search for an operator does at a byte: it goes on behind a group or a literal, stops at
a parenthesis that closes nothing, and stops with the operator that stands there. -/
def operatorStep (tier : Tier) (cs : List Char) (_ : Unit) (p : Nat) (byte : UInt8) :
    Except Fault (Move Unit (Option Found)) := do
  if byte = '('.toUInt8 then
    return behind (← closingParen cs p)
  else if ← opensLiteral cs p then
    return behind (← closingQuote cs p)
  else if byte = ')'.toUInt8 then
    return .stop none
  else
    match ← operatorAt tier cs p with
    | some found => return .stop (some found)
    | none => return .go () (p + 1)

/-- The first operator of a tier in a text. -/
def findOperator (tier : Tier) (cs : List Char) : Except Fault (Option Found) :=
  scan (bytes cs) (operatorStep tier cs) (fun _ => none) () 0

/-- The first operator of the weakest tier that has one. -/
def findNextOperator (cs : List Char) : Except Fault (Option Found) :=
  Tier.all.findSomeM? fun tier => findOperator tier cs

section Step

variable {tier : Tier} {cs before tail : List Char} {p : Nat} {byte : UInt8} {k : Cursor}

theorem operatorStep_open {close? : Option Nat} (hopen : byte = '('.toUInt8)
    (hcloses : closingParen cs p = .ok close?) :
    operatorStep tier cs () p byte = .ok (behind close?) := by
  rw [operatorStep, if_pos hopen, hcloses]
  rfl

theorem operatorStep_quote {close? : Option Nat} (hopen : byte ≠ '('.toUInt8)
    (hopens : opensLiteral cs p = .ok true) (hcloses : closingQuote cs p = .ok close?) :
    operatorStep tier cs () p byte = .ok (behind close?) := by
  rw [operatorStep, if_neg hopen, hopens, hcloses]
  rfl

theorem operatorStep_close (hclose : byte = ')'.toUInt8) (hplain : opensLiteral cs p = .ok false) :
    operatorStep tier cs () p byte = .ok (.stop none) := by
  rw [operatorStep, hplain, hclose]
  rfl

theorem operatorStep_of_ne {found? : Option Found} (hopen : byte ≠ '('.toUInt8)
    (hplain : opensLiteral cs p = .ok false) (hclose : byte ≠ ')'.toUInt8)
    (hat : operatorAt tier cs p = .ok found?) :
    operatorStep tier cs () p byte = .ok (found?.elim (.go () (p + 1)) fun found =>
      .stop (some found)) := by
  rw [operatorStep, if_neg hopen, hplain, ok_bind, if_neg (by simp), if_neg hclose, hat]
  cases found? <;> rfl

theorem passesInside_operatorStep : PassesInside cs (operatorStep tier cs) :=
  fun _ p byte hsplit hbyte => by
    rw [operatorStep_of_ne (byte_ne (by decide) hsplit hbyte) (opensLiteral_inside hsplit)
      (byte_ne (by decide) hsplit hbyte) (operatorAt_inside hsplit)]
    rfl

/-- A character that is neither parenthesis nor quote is where an operator may stand. -/
theorem operatorStep_plain (tier : Tier) {c : Char} (hd : k.depth = 0)
    (h : k.Between before (c :: tail))
    (ne_open : c ≠ '(') (ne_close : c ≠ ')')
    (apostrophe : c = '\'' → FeatureQuery.opensLiteral k.previous = false)
    (hbyte : (bytes (before ++ c :: tail))[byteLength before]? = some byte) :
    operatorStep tier (before ++ c :: tail) () (byteLength before) byte =
      .ok (((operatorAt? tier k (c :: tail)).map fun (op, rest) =>
        Found.ofSplit ⟨before, op, rest⟩).elim (.go () (byteLength before + 1)) fun found =>
          .stop (some found)) := by
  have hat : operatorAt? tier k (c :: tail) = tier.read? before.getLast? (c :: tail) := by
    obtain ⟨_, heq⟩ := Cursor.eq_of_next (h.outside.next_plain ne_open ne_close apostrophe)
    have hq : .outside = k.quoting.next k.previous c := congrArg Cursor.quoting heq
    rw [operatorAt?, if_pos (by simp [Cursor.isPlain, hd, ← hq]), h.previous]
  rw [hat]
  exact operatorStep_of_ne (mt (byte_eq_iff (by decide) hbyte).mp ne_open)
    (opensLiteral_plain tail (h.previous ▸ apostrophe))
    (mt (byte_eq_iff (by decide) hbyte).mp ne_close) (operatorAt_append tier before (c :: tail))

/-- **The search by bytes** finds what the search by characters finds. -/
theorem scan_operatorStep {after : List Char} (hd : k.depth = 0) (h : k.Between before after) :
    scan (bytes (before ++ after)) (operatorStep tier (before ++ after)) (fun _ => none) ()
        (byteLength before) =
      .ok ((findOperatorFrom tier k after).map fun s => Found.ofSplit (s.prepend before)) := by
  -- by induction on the length: what the cursor takes is taken away as a whole
  induction hn : after.length using Nat.strongRecOn generalizing before after k with
  | ind n ih =>
    subst hn
    have htakes {piece rest : List Char} {k' : Cursor} (heq : after = piece ++ rest)
        (ht : k.Takes piece rest k') (hd' : k'.depth = 0)
        (hfind : findOperatorFrom tier k after =
          (findOperatorFrom tier k' rest).map (Split.prepend piece))
        (hscan : scan (bytes (before ++ after)) (operatorStep tier (before ++ after))
            (fun _ => none) () (byteLength before) =
          scan (bytes (before ++ after)) (operatorStep tier (before ++ after))
            (fun _ => none) () (byteLength (before ++ piece))) :
        scan (bytes (before ++ after)) (operatorStep tier (before ++ after)) (fun _ => none) ()
            (byteLength before) =
          .ok ((findOperatorFrom tier k after).map fun s => Found.ofSplit (s.prepend before)) := by
      subst heq
      have hpos := List.length_pos_iff.mpr ht.ne_nil
      have hrest := ih rest.length (by rw [List.length_append]; omega) hd' (h.takes ht) rfl
      rw [List.append_assoc] at hrest
      rw [hscan, hrest, hfind, Option.map_map]
      simp only [Function.comp_def, Split.prepend, List.append_assoc]
    cases k.ahead after with
    | nil =>
      rw [List.append_nil, scan_end (no_byte before)]
      rfl
    | literal opens closes =>
      refine htakes ?_ (Cursor.takes_literal h.outside opens closes) hd ?_
        (scan_enclosed rfl fun _ hbyte => operatorStep_quote
          (mt (byte_eq_iff (q := '(') (by decide) hbyte).mp (by decide))
          (opensLiteral_quote _ (h.previous ▸ opens)) (closingQuote_eq_some before closes))
      · rw [eq_append_of_closeLiteral closes]
        simp
      · rw [findOperatorFrom_quote tier h.outside opens, closes]
        rfl
    | @unclosed tail opens never =>
      obtain ⟨byte, hbyte⟩ := exists_byte before '\'' tail
      have hopen := mt (byte_eq_iff (q := '(') (by decide) hbyte).mp (by decide)
      rw [scan_stop hbyte (operatorStep_quote hopen
          (opensLiteral_quote tail (h.previous ▸ opens)) (closingQuote_eq_none before never)),
        findOperatorFrom_quote tier h.outside opens, never]
      rfl
    | @opening tail =>
      have hfind := findOperatorFrom_open tier h.outside.quoting tail
      have hcloses := closingParen_eq before tail
      cases hclose : closeGroup Cursor.inGroup tail with
      | none =>
        obtain ⟨byte, hbyte⟩ := exists_byte before '(' tail
        have hopen := (byte_eq_iff (q := '(') (by decide) hbyte).mpr rfl
        rw [hclose] at hcloses hfind
        rw [scan_stop hbyte (operatorStep_open hopen hcloses), hfind]
        rfl
      | some parts =>
        obtain ⟨inside, rest⟩ := parts
        rw [hclose] at hcloses hfind
        refine htakes ?_ (Cursor.takes_group h.outside.quoting hclose) hd hfind
          (scan_enclosed rfl fun _ hbyte =>
            operatorStep_open ((byte_eq_iff (by decide) hbyte).mpr rfl) hcloses)
        rw [eq_append_of_closeGroup hclose]
        simp
    | @closing tail =>
      obtain ⟨byte, hbyte⟩ := exists_byte before ')' tail
      have hclose := (byte_eq_iff (q := ')') (by decide) hbyte).mpr rfl
      have hplain : opensLiteral (before ++ ')' :: tail) (byteLength before) = .ok false :=
        opensLiteral_plain tail fun hc => absurd hc (by decide)
      rw [scan_stop hbyte (operatorStep_close hclose hplain), findOperatorFrom,
        operatorAt?_eq_none_of_mem (by simp), Cursor.next_close hd h.outside.quoting]
      rfl
    | @plain c tail ne_open ne_close apostrophe =>
      obtain ⟨byte, hbyte⟩ := exists_byte before c tail
      have hstep := operatorStep_plain tier hd h ne_open ne_close apostrophe hbyte
      cases hread : operatorAt? tier k (c :: tail) with
      | some found =>
        rw [hread] at hstep
        rw [scan_stop hbyte hstep, findOperatorFrom, hread]
        simp [Split.prepend]
      | none =>
        rw [hread] at hstep
        exact htakes rfl (Cursor.takes_plain h.outside ne_open ne_close apostrophe) hd
          (findOperatorFrom_cons hread (h.outside.next_plain ne_open ne_close apostrophe))
          (scan_next passesInside_operatorStep hbyte hstep)

/-- **The first operator of a tier** stands at the same positions for both searches. -/
theorem findOperator_eq (tier : Tier) (cs : List Char) :
    findOperator tier cs = .ok ((FeatureQuery.findOperator tier cs).map Found.ofSplit) :=
  have hbetween : Cursor.start.Between [] cs := ⟨rfl, Cursor.outsideBefore_of_outside rfl _⟩
  scan_operatorStep rfl hbetween

/-- **The operator at which a text splits** is the same for both. -/
theorem findNextOperator_eq (cs : List Char) :
    findNextOperator cs = .ok ((FeatureQuery.findNextOperator cs).map Found.ofSplit) := by
  simp only [findNextOperator, FeatureQuery.findNextOperator, Tier.all, List.findSomeM?,
    findOperator_eq, ok_bind, List.findSome?_cons, List.findSome?_nil]
  cases FeatureQuery.findOperator .logical cs with
  | some s => rfl
  | none =>
    cases FeatureQuery.findOperator .unaryText cs with
    | some s => rfl
    | none => cases FeatureQuery.findOperator .comparison cs <;> rfl

end Step

/-! ### Balanced texts -/

section Balanced

variable {cs before after inside rest : List Char} {k : Cursor} {op : Operator}

theorem balanced_of_checkBalance (h : checkBalance cs = .ok (.ok ())) : Balanced cs := by
  rw [checkBalance_eq, Except.ok.injEq] at h
  exact checkBalance_eq_ok_iff.mp h

/-- The cursor reads every beginning of a balanced text. -/
theorem exists_run_of_balanced (h : Balanced (before ++ after)) :
    ∃ k, Cursor.start.run before = some k := by
  obtain ⟨l, hrun, -, -⟩ := h
  rw [Cursor.run_append] at hrun
  obtain ⟨k, hk, -⟩ := Option.bind_eq_some_iff.mp hrun
  exact ⟨k, hk⟩

/-- **A group of a balanced text closes**, if its parenthesis lies outside all literals. -/
theorem exists_closeGroup_of_balanced (h : Balanced (before ++ '(' :: after))
    (hrun : Cursor.start.run before = some k) (hq : k.quoting ≠ .inside) :
    ∃ inside rest, closeGroup .inGroup after = some (inside, rest) := by
  cases hclose : closeGroup .inGroup after with
  | some parts => exact ⟨parts.1, parts.2, rfl⟩
  | none =>
    -- the cursor would come to the end of the text with the group still open
    exfalso
    obtain ⟨k₁, hk₁⟩ := exists_run_of_closeGroup_eq_none hclose
    obtain ⟨l, hl, hs⟩ := (Cursor.shifted_after (k.depth + 1) 0 '(' .outside).run hk₁
    obtain ⟨l', hl', hd, -⟩ := h
    rw [Nat.zero_add] at hl
    rw [Cursor.run_append, hrun, Option.bind_some, Cursor.run, Cursor.next_open hq,
      Option.bind_some, hl] at hl'
    obtain rfl := Option.some.inj hl'
    have hdeep := hs.depth
    omega

/-- **In a group** the depth is greater than before it. -/
theorem exists_run_inside (hclose : closeGroup .inGroup after = some (inside, rest))
    (hrun : Cursor.start.run before = some k) (hq : k.quoting ≠ .inside) {piece : List Char}
    (hpiece : piece <+: inside) :
    ∃ l, Cursor.start.run (before ++ '(' :: piece) = some l ∧ k.depth < l.depth := by
  obtain ⟨more, rfl⟩ := hpiece
  obtain ⟨k₁, hinside, -⟩ := exists_run_of_closeGroup hclose
  rw [Cursor.run_append] at hinside
  obtain ⟨k₂, hk₂, -⟩ := Option.bind_eq_some_iff.mp hinside
  obtain ⟨l, hl, hs⟩ := (Cursor.shifted_after (k.depth + 1) 0 '(' .outside).run hk₂
  refine ⟨l, ?_, by rw [hs.depth]; omega⟩
  rw [Nat.zero_add] at hl
  rw [Cursor.run_append, hrun, Option.bind_some, Cursor.run, Cursor.next_open hq, Option.bind_some,
    hl]

/-- **Behind a group** the depth is what it was before. -/
theorem exists_run_group (hclose : closeGroup .inGroup after = some (inside, rest))
    (hrun : Cursor.start.run before = some k) (hq : k.quoting ≠ .inside) :
    Cursor.start.run (before ++ '(' :: (inside ++ [')'])) = some ⟨some ')', k.depth, .outside⟩ := by
  rw [Cursor.run_append, hrun, Option.bind_some, (Cursor.takes_group hq hclose).run]

/-- **An operator outside all groups and literals** is found, or one before it. -/
theorem findOperator_ne_none (hrun : Cursor.start.run before = some k) (hd : k.depth = 0)
    (hq : k.quoting ≠ .inside)
    (halone : op.isWord = true → Operator.touchesLetter before.getLast? after.head? = false) :
    FeatureQuery.findOperator op.tier (before ++ (op.text.toList ++ after)) ≠ none := by
  have hprevious : k.previous = before.getLast? := by
    rw [Cursor.previous_of_run hrun]
    exact Option.or_none
  obtain ⟨found, hread⟩ : ∃ found,
      op.tier.read? k.previous (op.text.toList ++ after) = some found := by
    rw [hprevious]
    cases hword : op.isWord with
    | true => exact ⟨_, Operator.read?_word hword (halone hword)⟩
    | false =>
      rw [Operator.tier_eq_comparison_iff.mpr hword]
      exact Option.ne_none_iff_exists'.mp (Operator.read?_comparison_ne_none hword _ _)
  have hat := operatorAt?_of_read? hd hq hread
  obtain ⟨s, hs, -⟩ := exists_findOperatorFrom hrun (by rw [hat, Option.isSome_some])
  rw [FeatureQuery.findOperator, hs]
  simp

/-- **The searches agree on balanced texts.** For each parenthesis that opens a group outside all
literals, the search for the closing one finds the parenthesis behind a text that is balanced
itself; between the two the depth is greater than before the group, and behind the second it is the
same again. The search for an operator comes to an end in every tier, and finds none only if no
operator of the tier stands on its own outside all groups and literals. -/
theorem groups_agree {cs : List Char} (h : checkBalance cs = .ok (.ok ())) :
    (∀ before after, cs = before ++ '(' :: after →
      ∃ k, Cursor.start.run before = some k ∧ (k.quoting ≠ .inside →
        ∃ inside rest, after = inside ++ ')' :: rest ∧
          closingParen cs (byteLength before) = .ok (some (byteLength (before ++ '(' :: inside))) ∧
          (∀ piece, piece <+: inside →
            ∃ l, Cursor.start.run (before ++ '(' :: piece) = some l ∧ k.depth < l.depth) ∧
          (∃ l, Cursor.start.run (before ++ '(' :: (inside ++ [')'])) = some l ∧
            l.depth = k.depth) ∧
          checkBalance inside = .ok (.ok ()))) ∧
      ∀ tier, ∃ found?, findOperator tier cs = .ok found? ∧ (found? = none →
        ∀ before (op : Operator) after, cs = before ++ (op.text.toList ++ after) → op.tier = tier →
          ∃ k, Cursor.start.run before = some k ∧ ¬ (k.depth = 0 ∧ k.quoting ≠ .inside ∧
            (op.isWord = true → Operator.touchesLetter before.getLast? after.head? = false))) := by
  have hbalanced := balanced_of_checkBalance h
  constructor
  · rintro before after rfl
    obtain ⟨k, hrun⟩ := exists_run_of_balanced hbalanced
    refine ⟨k, hrun, fun hq => ?_⟩
    obtain ⟨inside, rest, hclose⟩ := exists_closeGroup_of_balanced hbalanced hrun hq
    refine ⟨inside, rest, eq_append_of_closeGroup hclose, ?_, fun piece hpiece => ?_, ?_, ?_⟩
    · rw [closingParen_eq, hclose]
      rfl
    · exact exists_run_inside hclose hrun hq hpiece
    · exact ⟨_, exists_run_group hclose hrun hq, rfl⟩
    · rw [checkBalance_eq, checkBalance_eq_ok_iff.mpr (balanced_of_closeGroup hclose)]
  · intro tier
    refine ⟨_, findOperator_eq tier cs, fun hnone => ?_⟩
    rintro before op after rfl rfl
    obtain ⟨k, hrun⟩ := exists_run_of_balanced hbalanced
    refine ⟨k, hrun, ?_⟩
    rintro ⟨hd, hq, halone⟩
    exact findOperator_ne_none hrun hd hq halone (Option.map_eq_none_iff.mp hnone)

/-- A letter of two bytes, parentheses in literals, and a quote in one; the group inside the group
begins at the sixteenth byte, and the words lie in the outer one. -/
theorem groups_agree_nested :
    let cs := "(á or ')' and (b = '(''')) <> ' or '".toList
    let before := "(á or ')' and ".toList
    checkBalance cs = .ok (.ok ()) ∧ closingParen cs 15 = .ok (some 25) ∧
      findOperator .logical cs = .ok none ∧
      (∃ inside rest l, "b = '(''')) <> ' or '".toList = inside ++ ')' :: rest ∧
        byteLength (before ++ '(' :: inside) = 25 ∧ checkBalance inside = .ok (.ok ()) ∧
        Cursor.start.run (before ++ '(' :: (inside ++ [')'])) = some l ∧ l.depth = 1) ∧
      ∃ k, Cursor.start.run "(á or ')' ".toList = some k ∧
        ¬ (k.depth = 0 ∧ k.quoting ≠ .inside) := by
  intro cs before
  have hbalance : checkBalance cs = .ok (.ok ()) := by decide +kernel
  have hparen : closingParen cs 15 = .ok (some 25) := by decide +kernel
  have hnone : findOperator .logical cs = .ok none := by decide +kernel
  have hbefore : Cursor.start.run before = some ⟨some ' ', 1, .outside⟩ := by decide +kernel
  obtain ⟨hgroups, hoperators⟩ := groups_agree hbalance
  refine ⟨hbalance, hparen, hnone, ?_, ?_⟩
  · obtain ⟨k, hrun, hk⟩ := hgroups before "b = '(''')) <> ' or '".toList rfl
    obtain rfl := Option.some.inj (hbefore.symm.trans hrun)
    obtain ⟨inside, rest, hsplit, hclose, -, ⟨l, hl, hd⟩, hinside⟩ := hk (by simp)
    have hlength : byteLength before = 15 := by decide +kernel
    rw [hlength, hparen, Except.ok.injEq, Option.some.injEq] at hclose
    exact ⟨inside, rest, l, hsplit, hclose.symm, hinside, hl, hd⟩
  · obtain ⟨found?, hfound, hnever⟩ := hoperators .logical
    obtain rfl := Except.ok.inj (hnone.symm.trans hfound)
    obtain ⟨k, hrun, hk⟩ := hnever rfl "(á or ')' ".toList (.join .and)
      " (b = '(''')) <> ' or '".toList rfl rfl
    exact ⟨k, hrun, fun ⟨hd, hq⟩ => hk ⟨hd, hq, fun _ => by decide⟩⟩

end Balanced
end Bytes
end FeatureQuery
