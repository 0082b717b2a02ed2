import FeatureQuery.Proofs.Query.Scanning

/-!
# Positions in bytes

A text can be addressed by the bytes of its UTF-8 form. A position is a **boundary** of the text if
it lies within it and a character begins there, or the text ends; a text can be cut at its
boundaries only. `Text.splitAt?` cuts it there, and so do `upTo`, `onward` and `between`, which fail
everywhere else (`Fault`).

The byte of an ASCII character stands nowhere but where the character stands
(`Text.getElem?_bytes_eq_iff`), so that a search for it can stop at a boundary only. At a position
that is no boundary stands a byte beyond ASCII.
-/

namespace FeatureQuery

namespace Text

/-! ### The bytes of a text -/

/-- The bytes of a text in UTF-8. -/
def bytes (cs : List Char) : List UInt8 := cs.flatMap String.utf8EncodeChar

theorem bytes_cons (c : Char) (cs : List Char) :
    bytes (c :: cs) = String.utf8EncodeChar c ++ bytes cs := List.flatMap_cons

theorem bytes_append (cs ds : List Char) : bytes (cs ++ ds) = bytes cs ++ bytes ds :=
  List.flatMap_append

theorem length_bytes (cs : List Char) : (bytes cs).length = byteLength cs := by
  induction cs with
  | nil => rfl
  | cons c cs ih =>
    rw [bytes_cons, List.length_append, String.length_utf8EncodeChar, ih, byteLength_cons]

theorem utf8Size_eq_one_iff {c : Char} : c.utf8Size = 1 ↔ c.toNat < 0x80 := by
  rw [Char.utf8Size_eq_one_iff, UInt32.le_iff_toNat_le]
  exact Nat.lt_succ_iff.symm

theorem toNat_toUInt8 {q : Char} (hq : q.toNat < 0x80) : q.toUInt8.toNat = q.toNat :=
  Nat.mod_eq_of_lt (Nat.lt_trans hq (by decide))

/-- An ASCII character is a byte of its own. -/
theorem utf8EncodeChar_of_ascii {q : Char} (hq : q.toNat < 0x80) :
    String.utf8EncodeChar q = [q.toUInt8] :=
  String.utf8EncodeChar_eq_singleton (utf8Size_eq_one_iff.mpr hq)

/-- All bytes of another character lie beyond ASCII. -/
theorem le_of_mem_utf8EncodeChar {c : Char} (hc : ¬ c.toNat < 0x80) :
    ∀ b ∈ String.utf8EncodeChar c, 0x80 ≤ b.toNat := by
  have hor (a : UInt8) {b : UInt8} (hb : 0x80 ≤ b.toNat) : 0x80 ≤ (a ||| b).toNat := by
    rw [UInt8.toNat_or]
    exact Nat.le_trans hb Nat.right_le_or
  rcases Char.utf8Size_eq c with h | h | h | h
  · exact absurd (utf8Size_eq_one_iff.mp h) hc
  · rw [String.utf8EncodeChar_eq_cons_cons h]
    simp only [List.forall_mem_cons]
    exact ⟨hor _ (by decide), hor _ (by decide), List.forall_mem_nil _⟩
  · rw [String.utf8EncodeChar_eq_cons_cons_cons h]
    simp only [List.forall_mem_cons]
    exact ⟨hor _ (by decide), hor _ (by decide), hor _ (by decide), List.forall_mem_nil _⟩
  · rw [String.utf8EncodeChar_eq_cons_cons_cons_cons h]
    simp only [List.forall_mem_cons]
    exact ⟨hor _ (by decide), hor _ (by decide), hor _ (by decide), hor _ (by decide),
      List.forall_mem_nil _⟩

/-- **The byte of an ASCII character** stands where the character stands. -/
theorem getElem?_bytes_eq_iff {q : Char} (hq : q.toNat < 0x80) {cs : List Char} {p : Nat} :
    (bytes cs)[p]? = some q.toUInt8 ↔
      ∃ before after, cs = before ++ q :: after ∧ byteLength before = p := by
  constructor
  · intro h
    induction cs generalizing p with
    | nil => simp [bytes] at h
    | cons c cs ih =>
      rw [bytes_cons] at h
      by_cases hp : p < c.utf8Size
      · -- the byte belongs to the first character, which then is the ASCII character itself
        rw [List.getElem?_append_left (by rwa [String.length_utf8EncodeChar])] at h
        have hc : c.toNat < 0x80 := Decidable.byContradiction fun hbeyond => by
          have hle := le_of_mem_utf8EncodeChar hbeyond _ (List.mem_of_getElem? h)
          rw [toNat_toUInt8 hq] at hle
          omega
        obtain rfl : p = 0 := by
          rw [utf8Size_eq_one_iff.mpr hc] at hp
          omega
        rw [utf8EncodeChar_of_ascii hc, List.getElem?_cons_zero] at h
        have hnat := congrArg UInt8.toNat (Option.some.inj h)
        rw [toNat_toUInt8 hc, toNat_toUInt8 hq] at hnat
        exact ⟨[], cs, by rw [Char.toNat_inj.mp hnat, List.nil_append], rfl⟩
      · rw [List.getElem?_append_right (by rw [String.length_utf8EncodeChar]; omega),
          String.length_utf8EncodeChar] at h
        obtain ⟨before, after, rfl, hlength⟩ := ih h
        exact ⟨c :: before, after, rfl, by rw [byteLength_cons, hlength]; omega⟩
  · rintro ⟨before, after, rfl, rfl⟩
    rw [bytes_append, ← length_bytes, List.getElem?_append_right (Nat.le_refl _), Nat.sub_self,
      bytes_cons, utf8EncodeChar_of_ascii hq]
    rfl

/-! ### Boundaries -/

/-- The two parts of a text at a position, if it is a boundary. -/
def splitAt? : List Char → Nat → Option (List Char × List Char)
  | cs, 0 => some ([], cs)
  | [], _ + 1 => none
  | c :: cs, p + 1 =>
    if c.utf8Size ≤ p + 1 then
      (splitAt? cs (p + 1 - c.utf8Size)).map fun (before, after) => (c :: before, after)
    else none

theorem splitAt?_eq_some_iff {cs before after : List Char} {p : Nat} :
    splitAt? cs p = some (before, after) ↔ cs = before ++ after ∧ byteLength before = p := by
  fun_induction splitAt? cs p generalizing before with
  | case1 cs =>
    constructor
    · intro h
      cases h
      exact ⟨rfl, rfl⟩
    · rintro ⟨rfl, hzero⟩
      cases before with
      | nil => rfl
      | cons c before =>
        have hpos := c.utf8Size_pos
        rw [byteLength_cons] at hzero
        omega
  | case2 p =>
    constructor
    · simp
    · rintro ⟨hnil, hlength⟩
      obtain ⟨rfl, rfl⟩ := List.append_eq_nil_iff.mp hnil.symm
      simp at hlength
  | case3 c cs p hle ih =>
    rw [Option.map_eq_some_iff]
    constructor
    · rintro ⟨⟨b, a⟩, hsplit, heq⟩
      cases heq
      obtain ⟨rfl, hlength⟩ := ih.mp hsplit
      exact ⟨rfl, by rw [byteLength_cons, hlength]; omega⟩
    · rintro ⟨heq, hlength⟩
      cases before with
      | nil => simp at hlength
      | cons d before =>
        obtain ⟨rfl, rfl⟩ := List.cons.inj heq
        rw [byteLength_cons] at hlength
        exact ⟨(before, after), ih.mpr ⟨rfl, by omega⟩, rfl⟩
  | case4 c cs p hlt =>
    constructor
    · simp
    · rintro ⟨heq, hlength⟩
      cases before with
      | nil => simp at hlength
      | cons d before =>
        obtain ⟨rfl, rfl⟩ := List.cons.inj heq
        rw [byteLength_cons] at hlength
        omega

theorem splitAt?_append (before after : List Char) :
    splitAt? (before ++ after) (byteLength before) = some (before, after) :=
  splitAt?_eq_some_iff.mpr ⟨rfl, rfl⟩

/-- The position lies within the text, and a character begins there or the text ends. -/
def IsBoundary (cs : List Char) (p : Nat) : Prop :=
  (String.Pos.Raw.mk p).IsValid (String.ofList cs)

theorem isBoundary_iff {cs : List Char} {p : Nat} :
    IsBoundary cs p ↔ ∃ before after, cs = before ++ after ∧ byteLength before = p := by
  rw [IsBoundary, String.Pos.Raw.isValid_iff_exists_append]
  constructor
  · rintro ⟨s, t, heq, hp⟩
    refine ⟨s.toList, t.toList, ?_, ?_⟩
    · simpa using congrArg String.toList heq
    · have hbytes := congrArg String.Pos.Raw.byteIdx hp
      rw [← utf8ByteSize_ofList, String.ofList_toList]
      exact hbytes.symm
  · rintro ⟨before, after, rfl, rfl⟩
    refine ⟨String.ofList before, String.ofList after, String.ofList_append, ?_⟩
    rw [← utf8ByteSize_ofList]
    rfl

/-- **The boundaries** are the positions at which the text can be cut. -/
theorem isSome_splitAt?_iff {cs : List Char} {p : Nat} :
    (splitAt? cs p).isSome ↔ IsBoundary cs p := by
  rw [isBoundary_iff, Option.isSome_iff_exists]
  exact ⟨fun ⟨(before, after), h⟩ => ⟨before, after, splitAt?_eq_some_iff.mp h⟩,
    fun ⟨before, after, h⟩ => ⟨(before, after), splitAt?_eq_some_iff.mpr h⟩⟩

theorem isBoundary_append (before after : List Char) :
    IsBoundary (before ++ after) (byteLength before) :=
  isBoundary_iff.mpr ⟨before, after, rfl, rfl⟩

/-- On both sides of an ASCII character are boundaries. -/
theorem isBoundary_of_getElem? {q : Char} (hq : q.toNat < 0x80) {cs : List Char} {p : Nat}
    (h : (bytes cs)[p]? = some q.toUInt8) : IsBoundary cs p ∧ IsBoundary cs (p + 1) := by
  obtain ⟨before, after, rfl, rfl⟩ := (getElem?_bytes_eq_iff hq).mp h
  refine ⟨isBoundary_append before _, ?_⟩
  have hnext := isBoundary_append (before ++ [q]) after
  rwa [byteLength_append, byteLength_cons, byteLength_nil, utf8Size_eq_one_iff.mpr hq,
    List.append_assoc] at hnext

/-- **At a boundary** stands the byte of an ASCII character if that character follows. -/
theorem getElem?_bytes_append_cons {q : Char} (hq : q.toNat < 0x80) (before after : List Char)
    {c : Char} :
    (bytes (before ++ c :: after))[byteLength before]? = some q.toUInt8 ↔ c = q := by
  rw [getElem?_bytes_eq_iff hq]
  constructor
  · rintro ⟨b, a, heq, hlength⟩
    have hsplit := splitAt?_append before (c :: after)
    rw [splitAt?_eq_some_iff.mpr ⟨heq, hlength⟩] at hsplit
    cases hsplit
    rfl
  · rintro rfl
    exact ⟨before, after, rfl, rfl⟩

/-- Inside a character stands no byte of an ASCII character. -/
theorem ne_of_splitAt?_eq_none {q : Char} (hq : q.toNat < 0x80) {cs : List Char} {p : Nat}
    (h : splitAt? cs p = none) : (bytes cs)[p]? ≠ some q.toUInt8 := by
  intro hbyte
  have hsome := isSome_splitAt?_iff.mpr (isBoundary_of_getElem? hq hbyte).1
  rw [h] at hsome
  simp at hsome

/-- There is no boundary inside a character. -/
theorem splitAt?_inside (before : List Char) (c : Char) (after : List Char) {i : Nat} (hpos : 0 < i)
    (hlt : i < c.utf8Size) : splitAt? (before ++ c :: after) (byteLength before + i) = none := by
  rw [Option.eq_none_iff_forall_ne_some]
  rintro ⟨b, a⟩ hsplit
  obtain ⟨heq, hlength⟩ := splitAt?_eq_some_iff.mp hsplit
  obtain ⟨rest, rfl, hrest⟩ | ⟨rest, rfl, hrest⟩ := List.append_eq_append_iff.mp heq
  · cases rest with
    | nil =>
      simp at hlength
      omega
    | cons d rest =>
      obtain ⟨rfl, rfl⟩ := List.cons.inj hrest
      rw [byteLength_append, byteLength_cons] at hlength
      omega
  · rw [byteLength_append] at hlength
    omega

end Text

/-! ### Cutting a text -/

/-- What can go wrong where a text is addressed by bytes. -/
inductive Fault where
  /-- The position is no boundary of the text. -/
  | noBoundary (position : Nat)
  /-- A piece would end before it begins. -/
  | reversed (start stop : Nat)
  /-- A number would fall below zero. -/
  | belowZero
  /-- A loop would not come nearer to its end. -/
  | standstill
  deriving DecidableEq

namespace Bytes

/-- The text up to a position. -/
def upTo (cs : List Char) (stop : Nat) : Except Fault (List Char) :=
  match Text.splitAt? cs stop with
  | some (before, _) => .ok before
  | none => .error (.noBoundary stop)

/-- The text from a position on. -/
def onward (cs : List Char) (start : Nat) : Except Fault (List Char) :=
  match Text.splitAt? cs start with
  | some (_, after) => .ok after
  | none => .error (.noBoundary start)

/-- The text between two positions. -/
def between (cs : List Char) (start stop : Nat) : Except Fault (List Char) :=
  if stop < start then .error (.reversed start stop)
  else do
    let rest ← onward cs start
    upTo rest (stop - start)

/-- The difference of two numbers that are not negative. -/
def minus (a b : Nat) : Except Fault Nat := if b ≤ a then .ok (a - b) else .error .belowZero

theorem upTo_append (before after : List Char) :
    upTo (before ++ after) (Text.byteLength before) = .ok before := by
  rw [upTo, Text.splitAt?_append]

theorem onward_append (before after : List Char) :
    onward (before ++ after) (Text.byteLength before) = .ok after := by
  rw [onward, Text.splitAt?_append]

theorem between_append (before piece after : List Char) :
    between (before ++ (piece ++ after)) (Text.byteLength before)
      (Text.byteLength (before ++ piece)) = .ok piece := by
  rw [Text.byteLength_append, between, if_neg (Nat.not_lt.mpr (Nat.le_add_right _ _)),
    onward_append, Nat.add_sub_cancel_left]
  exact upTo_append piece after

theorem minus_of_le {a b : Nat} (h : b ≤ a) : minus a b = .ok (a - b) := if_pos h

end Bytes
end FeatureQuery
