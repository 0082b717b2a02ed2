import FeatureQuery.Proofs.Bytes.Positions

/-!
# Scans

A scan goes through the bytes of a text from a position on. At each byte a step says whether the
scan stops with an answer or goes on, in which state and at which position; at the end of the text
the state gives the answer. A step that would not lead on is a fault (`Fault.standstill`), so that a
scan without faults ends.

A scan whose steps are without faults is without faults itself, and what holds of every answer of a
step holds of its answer (`exists_scan`). Most steps mind ASCII characters only and pass over the
inside of any other (`PassesInside`); such a scan goes from one boundary to the next (`scan_next`).
-/

namespace FeatureQuery.Bytes

/-- What a scan does at a byte. -/
inductive Move (σ α : Type) where
  /-- It stops with an answer. -/
  | stop (answer : α)
  /-- It goes on in a state at a position. -/
  | go (state : σ) (position : Nat)

/-- Goes through the bytes from a position on. -/
def scan {σ α : Type} (bytes : List UInt8) (step : σ → Nat → UInt8 → Except Fault (Move σ α))
    (finish : σ → α) (state : σ) (position : Nat) : Except Fault α :=
  match _h : bytes[position]? with
  | none => .ok (finish state)
  | some byte =>
    match step state position byte with
    | .error fault => .error fault
    | .ok (.stop answer) => .ok answer
    | .ok (.go state next) =>
      if position < next then scan bytes step finish state next else .error .standstill
termination_by bytes.length - position
decreasing_by
  have := (List.getElem?_eq_some_iff.mp _h).1
  omega

section Scan

variable {σ α : Type} {bytes : List UInt8} {step : σ → Nat → UInt8 → Except Fault (Move σ α)}
  {finish : σ → α} {state state' : σ} {p next : Nat} {byte : UInt8} {answer : α}

theorem scan_end (h : bytes[p]? = none) : scan bytes step finish state p = .ok (finish state) := by
  rw [scan]
  split
  · rfl
  · simp_all

theorem scan_stop (hbyte : bytes[p]? = some byte) (h : step state p byte = .ok (.stop answer)) :
    scan bytes step finish state p = .ok answer := by
  rw [scan]
  split
  · simp_all
  · rename_i b hb
    obtain rfl := Option.some.inj (hbyte.symm.trans hb)
    rw [h]

theorem scan_go (hbyte : bytes[p]? = some byte) (h : step state p byte = .ok (.go state' next))
    (hlt : p < next) :
    scan bytes step finish state p = scan bytes step finish state' next := by
  rw [scan]
  split
  · simp_all
  · rename_i b hb
    obtain rfl := Option.some.inj (hbyte.symm.trans hb)
    rw [h]
    exact if_pos hlt

/-- **A scan without faults**: if from some position on every step stops with a good answer or leads
on, and the end of the text gives a good answer, the scan ends with one. -/
theorem exists_scan {good : α → Prop} {low : Nat}
    (hstep : ∀ state p byte, low ≤ p → bytes[p]? = some byte →
      (∃ answer, step state p byte = .ok (.stop answer) ∧ good answer) ∨
        ∃ state' next, step state p byte = .ok (.go state' next) ∧ p < next)
    (hfinish : ∀ state, good (finish state)) (hlow : low ≤ p) :
    ∃ answer, scan bytes step finish state p = .ok answer ∧ good answer := by
  -- by induction on what is left of the bytes
  induction hn : bytes.length - p using Nat.strongRecOn generalizing p state with
  | ind n ih =>
    subst hn
    cases hbyte : bytes[p]? with
    | none => exact ⟨_, scan_end hbyte, hfinish state⟩
    | some byte =>
      obtain ⟨answer, hs, hgood⟩ | ⟨state', next, hs, hlt⟩ := hstep state p byte hlow hbyte
      · exact ⟨answer, scan_stop hbyte hs, hgood⟩
      · have hin := (List.getElem?_eq_some_iff.mp hbyte).1
        rw [scan_go hbyte hs hlt]
        exact ih (bytes.length - next) (by omega) (Nat.le_trans hlow (Nat.le_of_lt hlt)) rfl

end Scan

/-! ### Scans of texts -/

section Text

open Text

variable {σ α : Type} {step : σ → Nat → UInt8 → Except Fault (Move σ α)} {finish : σ → α}
  {state state' : σ} {before after : List Char} {c : Char} {byte : UInt8}

/-- The steps go on to the next byte wherever a text cannot be cut. -/
def PassesInside (cs : List Char) (step : σ → Nat → UInt8 → Except Fault (Move σ α)) : Prop :=
  ∀ state p byte, splitAt? cs p = none → (bytes cs)[p]? = some byte →
    step state p byte = .ok (.go state (p + 1))

/-- Where a character begins there is a byte. -/
theorem exists_byte (before : List Char) (c : Char) (after : List Char) :
    ∃ byte, (bytes (before ++ c :: after))[byteLength before]? = some byte := by
  refine ⟨_, List.getElem?_eq_getElem ?_⟩
  have hpos := c.utf8Size_pos
  rw [length_bytes, byteLength_append, byteLength_cons]
  omega

theorem no_byte (cs : List Char) : (bytes cs)[byteLength cs]? = none :=
  List.getElem?_eq_none (Nat.le_of_eq (length_bytes cs))

theorem byteLength_concat (cs : List Char) (c : Char) :
    byteLength (cs ++ [c]) = byteLength cs + c.utf8Size := by
  rw [byteLength_append, byteLength_cons, byteLength_nil, Nat.add_zero]

/-- Behind a piece is the position after the character of one byte that closes it. -/
theorem byteLength_enclosed (before : List Char) (c : Char) (body : List Char) {q : Char}
    (hq : q.utf8Size = 1) :
    byteLength (before ++ c :: (body ++ [q])) = byteLength (before ++ c :: body) + 1 := by
  rw [← List.cons_append, ← List.append_assoc, byteLength_concat, hq]

/-- **Behind a piece**: a step that goes on behind the character that closes it leads to its end. -/
theorem scan_enclosed {body : List Char} {q : Char} (hq : q.utf8Size = 1)
    (hstep : ∀ byte, (bytes (before ++ c :: after))[byteLength before]? = some byte →
      step state (byteLength before) byte =
        .ok (.go state' (byteLength (before ++ c :: body) + 1))) :
    scan (bytes (before ++ c :: after)) step finish state (byteLength before) =
      scan (bytes (before ++ c :: after)) step finish state'
        (byteLength (before ++ c :: (body ++ [q]))) := by
  obtain ⟨byte, hbyte⟩ := exists_byte before c after
  rw [byteLength_enclosed before c body hq]
  refine scan_go hbyte (hstep byte hbyte) ?_
  rw [byteLength_append]
  omega

/-- The inside of a character is passed over. -/
theorem scan_inside (hpasses : PassesInside (before ++ c :: after) step) {i : Nat} (hpos : 0 < i)
    (hle : i ≤ c.utf8Size) :
    scan (bytes (before ++ c :: after)) step finish state (byteLength before + i) =
      scan (bytes (before ++ c :: after)) step finish state (byteLength (before ++ [c])) := by
  induction hn : c.utf8Size - i generalizing i with
  | zero =>
    obtain rfl : i = c.utf8Size := by omega
    rw [byteLength_concat]
  | succ n ih =>
    obtain ⟨byte, hbyte⟩ : ∃ byte,
        (bytes (before ++ c :: after))[byteLength before + i]? = some byte := by
      refine ⟨_, List.getElem?_eq_getElem ?_⟩
      rw [length_bytes, byteLength_append, byteLength_cons]
      omega
    have hsplit := splitAt?_inside before c after hpos (by omega)
    rw [scan_go hbyte (hpasses state _ byte hsplit hbyte) (Nat.lt_succ_self _)]
    exact ih (Nat.succ_pos i) (by omega) (by omega)

/-- **From one boundary to the next**: a step that goes on to the next byte leads behind the
character. -/
theorem scan_next (hpasses : PassesInside (before ++ c :: after) step)
    (hbyte : (bytes (before ++ c :: after))[byteLength before]? = some byte)
    (h : step state (byteLength before) byte = .ok (.go state' (byteLength before + 1))) :
    scan (bytes (before ++ c :: after)) step finish state (byteLength before) =
      scan (bytes (before ++ c :: after)) step finish state' (byteLength (before ++ [c])) := by
  rw [scan_go hbyte h (Nat.lt_succ_self _)]
  exact scan_inside hpasses Nat.one_pos c.utf8Size_pos

/-- At the first byte of a character the scan sees whether it is a given one of ASCII. -/
theorem byte_eq_iff {q : Char} (hq : q.toNat < 0x80)
    (hbyte : (bytes (before ++ c :: after))[byteLength before]? = some byte) :
    byte = q.toUInt8 ↔ c = q := by
  rw [← getElem?_bytes_append_cons hq before after, hbyte, Option.some.injEq]

/-- Inside a character it sees none. -/
theorem byte_ne {q : Char} (hq : q.toNat < 0x80) {cs : List Char} {p : Nat}
    (hsplit : splitAt? cs p = none) (hbyte : (bytes cs)[p]? = some byte) : byte ≠ q.toUInt8 := by
  rintro rfl
  exact ne_of_splitAt?_eq_none hq hsplit hbyte

end Text
end FeatureQuery.Bytes
