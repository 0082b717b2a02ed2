import FeatureQuery.Query.Parser

/-!
# Balanced texts

A text is **balanced** when a cursor that starts before it reads it to the end and then stands
outside all groups and literals; these are the texts that `checkBalance` accepts
(`checkBalance_eq_ok_iff`).

The cursor reads a text in the same way wherever the text stands, as long as no word and no literal
runs into it. `Cursor.Shifted n k l` says that `l` stands where `k` stands, only `n` groups deeper:
one step keeps this (`Cursor.Shifted.next`), and so does a whole text (`Cursor.Shifted.run`).
Balanced texts therefore stay balanced between parentheses (`Balanced.group`), and the parenthesis
that closes a group is the one written after its balanced text (`Balanced.closeGroup_eq`).
-/

namespace FeatureQuery

/-! ### The step of a cursor -/

/-- A literal is opened or not by what stands before the quote, and by nothing else. -/
theorem Quoting.next_congr {p p' : Option Char} (h : opensLiteral p = opensLiteral p')
    (q : Quoting) (c : Char) : q.next p c = q.next p' c := by
  cases q <;> simp [Quoting.next, h]

/-- Outside literals, and after one, only a quote leads into a literal. -/
theorem Quoting.next_eq_outside {q : Quoting} (hq : q ≠ .inside) {p : Option Char} {c : Char}
    (hc : c ≠ '\'') : q.next p c = .outside := by
  cases q <;> simp_all [Quoting.next]

namespace Cursor

/-- `l` stands where `k` stands, `n` groups deeper: the characters to come mean the same to both. -/
structure Shifted (n : Nat) (k l : Cursor) : Prop where
  depth : l.depth = k.depth + n
  quoting : l.quoting = k.quoting
  opens : opensLiteral l.previous = opensLiteral k.previous
  letter : l.previous.any Char.isAlpha = k.previous.any Char.isAlpha

theorem Shifted.symm {k l : Cursor} (h : Shifted 0 k l) : Shifted 0 l k :=
  ⟨h.depth.symm, h.quoting.symm, h.opens.symm, h.letter.symm⟩

/-- After the same character, the rest of the state decides. -/
theorem shifted_after (n d : Nat) (c : Char) (q : Quoting) :
    Shifted n ⟨some c, d, q⟩ ⟨some c, d + n, q⟩ := ⟨rfl, rfl, rfl, rfl⟩

/-- **One step** of two cursors that are shifted against each other. -/
theorem Shifted.next {n : Nat} {k l k' : Cursor} (h : Shifted n k l) {c : Char}
    (hk : k.next c = some k') : ∃ l', l.next c = some l' ∧ Shifted n k' l' := by
  obtain ⟨hd, hq, ho, -⟩ := h
  have hn : l.quoting.next l.previous c = k.quoting.next k.previous c := by
    rw [hq, Quoting.next_congr ho]
  unfold Cursor.next at hk ⊢
  rw [hn, hd]
  -- parentheses count only outside literals
  cases hout : k.quoting.next k.previous c with
  | outside =>
    simp only [hout] at hk ⊢
    by_cases hopen : c = '('
    · simp only [hopen, if_true, Option.some.injEq] at hk ⊢
      subst hk
      exact ⟨_, rfl, by simpa [Nat.add_right_comm] using shifted_after n (k.depth + 1) '(' .outside⟩
    · by_cases hclose : c = ')'
      · cases hkd : k.depth with
        | zero => simp [hclose, hkd] at hk
        | succ d =>
          simp only [hclose, hkd, Nat.add_right_comm d 1 n, if_false, if_true,
            Char.reduceEq, Option.some.injEq] at hk ⊢
          subst hk
          exact ⟨_, rfl, shifted_after n d ')' .outside⟩
      · simp only [hopen, hclose, if_false, Option.some.injEq] at hk ⊢
        subst hk
        exact ⟨_, rfl, shifted_after n k.depth c .outside⟩
  | inside =>
    simp only [hout, Option.some.injEq] at hk ⊢
    subst hk
    exact ⟨_, rfl, shifted_after n k.depth c .inside⟩
  | ended =>
    simp only [hout, Option.some.injEq] at hk ⊢
    subst hk
    exact ⟨_, rfl, shifted_after n k.depth c .ended⟩

/-- **A whole text** read by two cursors that are shifted against each other. -/
theorem Shifted.run {n : Nat} {k l k' : Cursor} (h : Shifted n k l) {cs : List Char}
    (hk : k.run cs = some k') : ∃ l', l.run cs = some l' ∧ Shifted n k' l' := by
  induction cs generalizing k l with
  | nil =>
    cases hk
    exact ⟨l, rfl, h⟩
  | cons c cs ih =>
    obtain ⟨k₁, hk₁, hrun⟩ := Option.bind_eq_some_iff.mp hk
    obtain ⟨l₁, hl₁, h₁⟩ := h.next hk₁
    obtain ⟨l', hl', h'⟩ := ih h₁ hrun
    exact ⟨l', by simp [Cursor.run, hl₁, hl'], h'⟩

/-- A cursor stops at a parenthesis that closes nothing, outside all literals. -/
theorem next_close {k : Cursor} (hd : k.depth = 0) (hq : k.quoting ≠ .inside) :
    k.next ')' = none := by
  simp [Cursor.next, Quoting.next_eq_outside hq, hd]

theorem next_open {k : Cursor} (hq : k.quoting ≠ .inside) :
    k.next '(' = some ⟨some '(', k.depth + 1, .outside⟩ := by
  simp [Cursor.next, Quoting.next_eq_outside hq]

theorem start_next_open : start.next '(' = some ⟨some '(', 1, .outside⟩ :=
  next_open (by simp [start])

theorem shifted_open (d : Nat) : Shifted d start ⟨some '(', d, .outside⟩ :=
  ⟨(Nat.zero_add d).symm, rfl, rfl, rfl⟩

end Cursor

/-! ### Balanced texts -/

/-- A text in which every group and every literal ends, and no parenthesis closes nothing. -/
def Balanced (cs : List Char) : Prop :=
  ∃ k, Cursor.start.run cs = some k ∧ k.depth = 0 ∧ k.quoting ≠ .inside

theorem checkBalanceFrom_eq_ok_iff {k : Cursor} {position : Nat} {cs : List Char} :
    checkBalanceFrom k position cs = .ok () ↔
      ∃ k', k.run cs = some k' ∧ k'.depth = 0 ∧ k'.quoting ≠ .inside := by
  induction cs generalizing k position with
  | nil =>
    by_cases hq : k.quoting = .inside
    · simp [checkBalanceFrom, Cursor.run, hq]
    · by_cases hd : k.depth = 0
      · simp [checkBalanceFrom, Cursor.run, hq, hd]
      · simp [checkBalanceFrom, Cursor.run, hq, hd, Nat.pos_of_ne_zero hd]
  | cons c cs ih =>
    rw [checkBalanceFrom, Cursor.run]
    cases k.next c with
    | none => simp
    | some k => simpa using ih

/-- **The balance check accepts exactly the balanced texts.** -/
theorem checkBalance_eq_ok_iff {cs : List Char} : checkBalance cs = .ok () ↔ Balanced cs :=
  checkBalanceFrom_eq_ok_iff

/-- Where a text may begin, a balanced text is read to its end and changes no depth. -/
theorem Balanced.run {cs : List Char} (h : Balanced cs) {n : Nat} {l : Cursor}
    (hl : Cursor.Shifted n .start l) :
    ∃ l', l.run cs = some l' ∧ l'.depth = n ∧ l'.quoting ≠ .inside := by
  obtain ⟨k, hk, hd, hq⟩ := h
  obtain ⟨l', hl', h'⟩ := hl.run hk
  refine ⟨l', hl', ?_, ?_⟩
  · rw [h'.depth, hd, Nat.zero_add]
  · rwa [h'.quoting]

/-- A balanced text between parentheses is balanced. -/
theorem Balanced.group {cs : List Char} (h : Balanced cs) : Balanced ('(' :: cs ++ [')']) := by
  obtain ⟨l, hl, hld, hlq⟩ := h.run (Cursor.shifted_open 1)
  refine ⟨⟨some ')', 0, .outside⟩, ?_, rfl, by simp⟩
  have hclose : l.next ')' = some ⟨some ')', 0, .outside⟩ := by
    simp [Cursor.next, Quoting.next_eq_outside hlq, hld]
  rw [List.cons_append, Cursor.run, Cursor.start_next_open, Option.bind_some, Cursor.run_append, hl,
    Option.bind_some, Cursor.run, hclose]
  rfl

/-! ### Where a group closes -/

/-- A group whose text the cursor reads to its end closes after that text, if it closes at all. -/
theorem closeGroup_append {k k' : Cursor} {cs : List Char} (h : k.run cs = some k')
    (ds : List Char) :
    closeGroup k (cs ++ ds) = (closeGroup k' ds).map fun (i, a) => (cs ++ i, a) := by
  induction cs generalizing k with
  | nil =>
    cases h
    simp
  | cons c cs ih =>
    obtain ⟨k₁, hk₁, hrun⟩ := Option.bind_eq_some_iff.mp h
    rw [List.cons_append, closeGroup, hk₁]
    simp only [ih hrun, Option.map_map]
    rfl

/-- What follows the text in which a group closes is left over. -/
theorem closeGroup_append_of_some {k : Cursor} {cs inside after : List Char}
    (h : closeGroup k cs = some (inside, after)) (ds : List Char) :
    closeGroup k (cs ++ ds) = some (inside, after ++ ds) := by
  induction cs generalizing k inside with
  | nil => simp [closeGroup] at h
  | cons c cs ih =>
    rw [closeGroup] at h
    rw [List.cons_append, closeGroup]
    cases hk : k.next c with
    | none => simp_all
    | some k₁ =>
      simp only [hk] at h ⊢
      obtain ⟨⟨i, a⟩, hia, heq⟩ := Option.map_eq_some_iff.mp h
      cases heq
      simp [ih hia]

/-- The cursor reads the text of a group that does not close to its end. -/
theorem exists_run_of_closeGroup_eq_none {k : Cursor} {cs : List Char}
    (h : closeGroup k cs = none) : ∃ k', k.run cs = some k' := by
  induction cs generalizing k with
  | nil => exact ⟨k, rfl⟩
  | cons c cs ih =>
    rw [closeGroup] at h
    cases hk : k.next c with
    | none => simp [hk] at h
    | some k₁ =>
      obtain ⟨k', hk'⟩ := ih (by simpa [hk] using h)
      exact ⟨k', by simp [Cursor.run, hk, hk']⟩

/-- A cursor stops outside all groups and literals. -/
theorem Cursor.outside_of_next_eq_none {k : Cursor} {c : Char} (h : k.next c = none) :
    k.depth = 0 ∧ k.quoting ≠ .inside := by
  obtain rfl := Cursor.eq_close_of_next h
  have hq : k.quoting ≠ .inside := by
    intro hinside
    simp [Cursor.next, Quoting.next, hinside] at h
  refine ⟨?_, hq⟩
  cases hd : k.depth with
  | zero => rfl
  | succ d => simp [Cursor.next, Quoting.next_eq_outside hq, hd] at h

/-- The cursor reads the text in which a group closes to its end, and stops there. -/
theorem exists_run_of_closeGroup {k : Cursor} {cs inside after : List Char}
    (h : closeGroup k cs = some (inside, after)) :
    ∃ k', k.run inside = some k' ∧ k'.next ')' = none := by
  induction cs generalizing k inside with
  | nil => simp [closeGroup] at h
  | cons c cs ih =>
    rw [closeGroup] at h
    cases hk : k.next c with
    | none =>
      simp only [hk, Option.some.injEq, Prod.mk.injEq] at h
      obtain ⟨rfl, rfl⟩ := h
      exact ⟨k, rfl, Cursor.eq_close_of_next hk ▸ hk⟩
    | some k₁ =>
      simp only [hk] at h
      obtain ⟨⟨i, a⟩, hia, heq⟩ := Option.map_eq_some_iff.mp h
      cases heq
      obtain ⟨k', hrun, hstop⟩ := ih hia
      exact ⟨k', by simp [Cursor.run, hk, hrun], hstop⟩

/-- The text of a group that closes is balanced. -/
theorem balanced_of_closeGroup {cs inside after : List Char}
    (h : closeGroup Cursor.inGroup cs = some (inside, after)) : Balanced inside := by
  obtain ⟨k, hrun, hstop⟩ := exists_run_of_closeGroup h
  obtain ⟨hd, hq⟩ := Cursor.outside_of_next_eq_none hstop
  obtain ⟨k', hk', hs⟩ := (Cursor.shifted_open 0).symm.run hrun
  exact ⟨k', hk', by simpa [hs.depth] using hd, hs.quoting ▸ hq⟩

/-- **A group closes after its balanced text.** -/
theorem Balanced.closeGroup_eq {cs : List Char} (h : Balanced cs) (ds : List Char) :
    closeGroup Cursor.inGroup (cs ++ ')' :: ds) = some (cs, ds) := by
  obtain ⟨k, hk, hd, hq⟩ := h.run (Cursor.shifted_open 0)
  have hk' : Cursor.inGroup.run cs = some k := hk
  rw [closeGroup_append hk', closeGroup, Cursor.next_close hd hq]
  simp

/-- The group that a balanced text begins with closes in that text. -/
theorem Balanced.exists_closeGroup {cs : List Char} (h : Balanced ('(' :: cs)) :
    ∃ inside after, closeGroup Cursor.inGroup cs = some (inside, after) := by
  cases hc : closeGroup Cursor.inGroup cs with
  | some s => exact ⟨s.1, s.2, rfl⟩
  | none =>
    -- the cursor would reach the end of the text with the group still open
    exfalso
    obtain ⟨k, hk⟩ := exists_run_of_closeGroup_eq_none hc
    have hshift : Cursor.Shifted 1 Cursor.inGroup ⟨some '(', 1, .outside⟩ :=
      Cursor.shifted_after 1 0 '(' .outside
    obtain ⟨l, hl, hs⟩ := hshift.run hk
    obtain ⟨k', hk', hd, -⟩ := h
    rw [Cursor.run, Cursor.start_next_open, Option.bind_some, hl] at hk'
    cases hk'
    have := hs.depth
    omega

end FeatureQuery
