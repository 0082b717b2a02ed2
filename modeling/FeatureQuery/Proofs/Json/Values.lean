import FeatureQuery.Json.Reader
import FeatureQuery.Proofs.Entries
import FeatureQuery.Proofs.Json.Tokens

/-!
# Values read back

`Json.Fits n` says of a value that a reader with room for `n` levels of arrays and objects can have
read it: it nests no deeper, no object repeats a name, and its numbers are in range. What is read
fits the reader's limit (`fits_of_read?`), and a value that fits it is read back from its tokens
(`run_tokens`) and so from its text (`read?_chars`). Both directions follow the frames of the
reader: a value inside some frames fits what they leave of the limit.
-/

namespace FeatureQuery.Json

/-- A value with at most the given number of levels of arrays and objects, whose objects name
nothing twice, and whose numbers are in range. -/
inductive Fits : Nat → Json → Prop where
  /-- The value `null`. -/
  | null {n : Nat} : Fits n .null
  /-- A truth value. -/
  | bool {n : Nat} (b : Bool) : Fits n (.bool b)
  /-- A number. -/
  | number {n : Nat} {m : JsonNumber} (h : m.InRange) : Fits n (.number m)
  /-- A text. -/
  | string {n : Nat} (s : String) : Fits n (.string s)
  /-- An array is one level. -/
  | array {n : Nat} {items : List Json} (h : ∀ v ∈ items, Fits n v) : Fits (n + 1) (.array items)
  /-- An object is one level. -/
  | object {n : Nat} {members : List (String × Json)} (hkeys : (Entries.keys members).Nodup)
      (h : ∀ member ∈ members, Fits n member.2) : Fits (n + 1) (.object members)

variable {n : Nat} {v : Json} {items : List Json} {members : List (String × Json)}

theorem fits_object_iff : (Json.object members).Fits (n + 1) ↔
    (Entries.keys members).Nodup ∧ ∀ member ∈ members, member.2.Fits n :=
  ⟨fun h => by cases h; exact ⟨‹_›, ‹_›⟩, fun h => .object h.1 h.2⟩

mutual

/-- How many levels of arrays and objects a value has. -/
def depth : Json → Nat
  | .null | .bool _ | .number _ | .string _ => 0
  | .array items => itemDepth items + 1
  | .object members => memberDepth members + 1

/-- The levels of the deepest item. -/
def itemDepth : List Json → Nat
  | [] => 0
  | v :: rest => max (depth v) (itemDepth rest)

/-- The levels of the deepest member. -/
def memberDepth : List (String × Json) → Nat
  | [] => 0
  | (_, v) :: rest => max (depth v) (memberDepth rest)

end

theorem depth_le_itemDepth (h : v ∈ items) : v.depth ≤ itemDepth items := by
  induction items with
  | nil => cases h
  | cons w rest ih =>
    rw [itemDepth]
    obtain rfl | h := List.mem_cons.1 h
    · exact Nat.le_max_left _ _
    · exact Nat.le_trans (ih h) (Nat.le_max_right _ _)

theorem depth_le_memberDepth {name : String} (h : (name, v) ∈ members) :
    v.depth ≤ memberDepth members := by
  induction members with
  | nil => cases h
  | cons member rest ih =>
    rw [memberDepth]
    obtain heq | h := List.mem_cons.1 h
    · rw [← heq]
      exact Nat.le_max_left _ _
    · exact Nat.le_trans (ih h) (Nat.le_max_right _ _)

theorem exists_of_succ_le {k m : Nat} (h : k + 1 ≤ m) : ∃ j, m = j + 1 ∧ k ≤ j :=
  ⟨m - 1, by omega, by omega⟩

/-- A value that fits a limit fits a larger one. -/
theorem Fits.mono {m : Nat} (h : v.Fits n) (hnm : n ≤ m) : v.Fits m := by
  induction h generalizing m with
  | null => exact .null
  | bool b => exact .bool b
  | number h => exact .number h
  | string s => exact .string s
  | array _ ih =>
    obtain ⟨m, rfl, hm⟩ := exists_of_succ_le hnm
    exact .array fun v hv => ih v hv hm
  | object hkeys _ ih =>
    obtain ⟨m, rfl, hm⟩ := exists_of_succ_le hnm
    exact .object hkeys fun member hmember => ih member hmember hm

/-- **Of a value that fits some limit only the depth counts** for another one. -/
theorem Fits.of_depth_le {m : Nat} (h : v.Fits n) (hdepth : v.depth ≤ m) : v.Fits m := by
  induction h generalizing m with
  | null => exact .null
  | bool b => exact .bool b
  | number h => exact .number h
  | string s => exact .string s
  | @array _ items _ ih =>
    obtain ⟨m, rfl, hitems⟩ := exists_of_succ_le hdepth
    exact .array fun v hv => ih v hv (Nat.le_trans (depth_le_itemDepth hv) hitems)
  | @object _ members hkeys _ ih =>
    obtain ⟨m, rfl, hmembers⟩ := exists_of_succ_le hdepth
    exact .object hkeys fun member hmember =>
      ih member hmember (Nat.le_trans (depth_le_memberDepth hmember) hmembers)

/-! ### From the tokens to the value -/

namespace Reading

variable {frames : List Frame}

/-- Where an array has items, its first one is read in a frame without items. -/
theorem run_arrayStart (v : Json) (rest : List Json) (ts : List Token) :
    (arrayStart frames).run (itemTokens (v :: rest) ++ ts) =
      (value (.array [] :: frames)).run (itemTokens (v :: rest) ++ ts) := by
  have hfirst : ∀ us, (arrayStart frames).run (v.tokens ++ us) =
      (value (.array [] :: frames)).run (v.tokens ++ us) := by
    intro us
    cases v <;> rfl
  cases rest with
  | nil => exact hfirst ts
  | cons w rest =>
    rw [itemTokens, List.append_assoc]
    exact hfirst _

/-- Where an object has members, the first name is read as any other. -/
theorem run_objectStart (member : String × Json) (rest : List (String × Json)) (ts : List Token) :
    (objectStart frames).run (memberTokens (member :: rest) ++ ts) =
      (name [] frames).run (memberTokens (member :: rest) ++ ts) := by
  cases rest <;> rfl

/-- Reading a value in these frames completes it. -/
def Completes (v : Json) (frames : List Frame) : Prop :=
  ∀ ts, (value frames).run (v.tokens ++ ts) = (complete v frames).run ts

/-- The items of an array are read in a frame that holds the earlier ones, in reverse order. -/
theorem run_itemTokens (v : Json) (rest done : List Json)
    (h : ∀ w ∈ v :: rest, ∀ done, Completes w (.array done :: frames)) (ts : List Token) :
    (value (.array done :: frames)).run (itemTokens (v :: rest) ++ .closeArray :: ts) =
      (complete (.array (done.reverse ++ v :: rest)) frames).run ts := by
  induction rest generalizing v done with
  | nil =>
    rw [itemTokens, h v List.mem_cons_self]
    simp [run, next]
  | cons w rest ih =>
    rw [itemTokens, List.append_assoc, h v List.mem_cons_self, List.cons_append]
    change (value (.array (v :: done) :: frames)).run _ = _
    rw [ih w (v :: done) fun u hu => h u (List.mem_cons_of_mem _ hu)]
    simp

/-- The members of an object are read in a frame that holds the earlier ones. -/
theorem run_memberTokens (key : String) (v : Json) (rest done : List (String × Json))
    (h : ∀ member ∈ (key, v) :: rest, ∀ done, Completes member.2 (.object done member.1 :: frames))
    (hkeys : (Entries.keys (done ++ (key, v) :: rest)).Nodup) (ts : List Token) :
    (name done frames).run (memberTokens ((key, v) :: rest) ++ .closeObject :: ts) =
      (complete (.object (done ++ (key, v) :: rest)) frames).run ts := by
  induction rest generalizing key v done with
  | nil =>
    have hput := Entries.put_of_nodup hkeys
    rw [memberTokens]
    change (value (.object done key :: frames)).run (v.tokens ++ .closeObject :: ts) = _
    rw [h (key, v) List.mem_cons_self]
    simp only [run, next, hput, Option.bind_some]
  | cons member rest ih =>
    have hput := Entries.put_of_nodup hkeys
    have hmore : done ++ (key, v) :: member :: rest = done ++ [(key, v)] ++ member :: rest := by
      simp
    rw [memberTokens]
    change (value (.object done key :: frames)).run (v.tokens ++ _ ++ _) = _
    rw [List.append_assoc, h (key, v) List.mem_cons_self]
    change (name (Entries.put key v done) frames).run _ = _
    rw [hput, hmore]
    rw [hmore] at hkeys
    exact ih member.1 member.2 _ (fun m hm => h m (List.mem_cons_of_mem _ hm)) hkeys

/-- **A value that fits is read back from its tokens**, whatever follows them, inside frames that
leave it enough of the limit. -/
theorem run_tokens (h : v.Fits n) (hn : n + frames.length ≤ maxNesting) : Completes v frames := by
  induction h generalizing frames with
  | null | bool | number | string => exact fun ts => rfl
  | @array n items _ ih =>
    intro ts
    have hopen : (value frames).run ((Json.array items).tokens ++ ts) =
        (arrayStart frames).run (itemTokens items ++ .closeArray :: ts) := by
      rw [tokens, List.cons_append, List.append_assoc, List.singleton_append, run, next, start,
        if_pos (by omega), Option.bind_some]
    rw [hopen]
    cases items with
    | nil => rfl
    | cons v rest =>
      rw [run_arrayStart]
      exact run_itemTokens v rest [] (fun w hw done => ih w hw (by simp; omega)) ts
  | @object n members hkeys _ ih =>
    intro ts
    have hopen : (value frames).run ((Json.object members).tokens ++ ts) =
        (objectStart frames).run (memberTokens members ++ .closeObject :: ts) := by
      rw [tokens, List.cons_append, List.append_assoc, List.singleton_append, run, next, start,
        if_pos (by omega), Option.bind_some]
    rw [hopen]
    cases members with
    | nil => rfl
    | cons member rest =>
      rw [run_objectStart]
      refine run_memberTokens member.1 member.2 rest [] (fun m hm done => ?_) hkeys ts
      exact ih m hm (by simp; omega)

end Reading

/-- A text with the tokens of a value that fits the limit denotes the value. -/
theorem read?_of_tokens? {s : String} (htokens : tokens? s.toList = some v.tokens)
    (h : v.Fits maxNesting) : read? s = some v := by
  have hcompletes : Reading.Completes v [] := Reading.run_tokens h (Nat.le_refl _)
  have hrun := hcompletes []
  rw [List.append_nil] at hrun
  simp only [read?, htokens, Option.bind_eq_bind, Option.bind_some, hrun]
  rfl

/-- **A value that fits the limit is read back from its text**, if only blanks follow. -/
theorem read?_chars {rest : List Char} (h : v.Fits maxNesting) (hv : ∀ n ∈ v.numbers, n.IsReread)
    (hrest : EndsNumber rest) (hblank : tokens? rest = some []) :
    read? (String.ofList (v.chars ++ rest)) = some v := by
  refine read?_of_tokens? ?_ h
  rw [String.toList_ofList, tokens?_chars v hv hrest, hblank, Option.map_some, List.append_nil]

/-- Nothing is read where another token follows the text of a value. -/
theorem read?_chars_eq_none {rest : List Char} (h : v.Fits maxNesting)
    (hv : ∀ n ∈ v.numbers, n.IsReread) (hrest : EndsNumber rest)
    (hmore : tokens? rest ≠ some []) : read? (String.ofList (v.chars ++ rest)) = none := by
  have hcompletes : Reading.Completes v [] := Reading.run_tokens h (Nat.le_refl _)
  rw [read?, String.toList_ofList, tokens?_chars v hv hrest]
  cases htokens : tokens? rest with
  | none => rfl
  | some ts =>
    cases ts with
    | nil => exact absurd htokens hmore
    | cons t ts =>
      have hnone : (Reading.complete v []).run (t :: ts) = none := by cases t <;> rfl
      simp only [Option.map_some, Option.bind_eq_bind, Option.bind_some, hcompletes (t :: ts),
        hnone, Option.bind_none]

/-! ### What is read fits -/

/-- A token that stands for a value stands for one that needs no level. -/
def Token.Fits : Token → Prop
  | .scalar v => ∀ n, v.Fits n
  | _ => True

theorem Token.fits_of_read? {cs rest : List Char} {t : Token}
    (h : Token.read? cs = some (t, rest)) : t.Fits := by
  rw [Token.read?.eq_def] at h
  split at h
  case h_7 =>
    obtain ⟨body, -, heq⟩ := Option.map_eq_some_iff.1 h
    cases heq
    trivial
  case h_8 =>
    cases h
    exact fun n => .null
  case h_9 | h_10 =>
    cases h
    exact fun n => .bool _
  case h_11 =>
    obtain ⟨⟨m, after⟩, hm, heq⟩ := Option.map_eq_some_iff.1 h
    cases heq
    exact fun n => .number (inRange_of_readNumber? hm)
  all_goals
    cases h
    trivial

theorem fits_of_tokens? {cs : List Char} {ts : List Token} (h : tokens? cs = some ts) :
    ∀ t ∈ ts, t.Fits := by
  fun_induction tokens? cs generalizing ts with
  | case1 => cases h; simp
  | case2 =>
    rename_i t rest hread ih
    obtain ⟨us, hus, rfl⟩ := Option.map_eq_some_iff.1 h
    intro u hu
    obtain rfl | hu := List.mem_cons.1 hu
    · exact Token.fits_of_read? hread
    · exact ih hus u hu
  | case3 => cases h

/-- The room for the values inside an array or object with so many frames around it. -/
def room (frames : List Frame) : Nat := maxNesting - (frames.length + 1)

/-- The members read so far of an object inside these frames. -/
structure MembersFit (members : List (String × Json)) (frames : List Frame) : Prop where
  /-- There is room for the object. -/
  lt : frames.length < maxNesting
  /-- Nothing is named twice. -/
  nodup_keys : (Entries.keys members).Nodup
  /-- The members fit into the room that the frames leave. -/
  fits : ∀ member ∈ members, member.2.Fits (room frames)

/-- The items and members in open frames fit into the room that the frames around them leave. -/
def FramesFit : List Frame → Prop
  | [] => True
  | .array items :: frames =>
    (frames.length < maxNesting ∧ ∀ v ∈ items, v.Fits (room frames)) ∧ FramesFit frames
  | .object members _ :: frames => MembersFit members frames ∧ FramesFit frames

/-- What has been read fits. -/
def Reading.Fits : Reading → Prop
  | .value frames => FramesFit frames
  | .arrayStart frames | .objectStart frames => frames.length < maxNesting ∧ FramesFit frames
  | .name members frames | .colon members _ frames => MembersFit members frames ∧ FramesFit frames
  | .complete v frames => v.Fits (maxNesting - frames.length) ∧ FramesFit frames

theorem room_add_one {frames : List Frame} (h : frames.length < maxNesting) :
    maxNesting - frames.length = room frames + 1 := by
  rw [room]
  omega

theorem MembersFit.put {frames : List Frame} (h : MembersFit members frames) (key : String)
    (hv : v.Fits (room frames)) : MembersFit (Entries.put key v members) frames where
  lt := h.lt
  nodup_keys := Entries.nodup_keys_put h.nodup_keys key v
  fits := fun member hmember => by
    obtain rfl | hmember := Entries.mem_put hmember
    · exact hv
    · exact h.fits member hmember

namespace Reading

variable {frames : List Frame} {reading after : Reading} {t : Token} {ts : List Token}

theorem Fits.start (h : FramesFit frames) (ht : t.Fits)
    (hstart : Reading.start frames t = some after) : after.Fits := by
  unfold Reading.start at hstart
  split at hstart
  · cases hstart
    exact ⟨.string _, h⟩
  · cases hstart
    exact ⟨ht _, h⟩
  · split at hstart
    · cases hstart
      exact ⟨‹_›, h⟩
    · cases hstart
  · split at hstart
    · cases hstart
      exact ⟨‹_›, h⟩
    · cases hstart
  · cases hstart

/-- **What has been read still fits after one more token.** -/
theorem Fits.next (h : reading.Fits) (ht : t.Fits) (hnext : reading.next t = some after) :
    after.Fits := by
  unfold Reading.next at hnext
  split at hnext
  -- a value begins
  · exact Fits.start h ht hnext
  · cases hnext
    rw [Reading.Fits, room_add_one h.1]
    exact ⟨.array (by simp), h.2⟩
  · have hframe : FramesFit (.array [] :: _) := ⟨⟨h.1, by simp⟩, h.2⟩
    exact Fits.start hframe ht hnext
  · cases hnext
    rw [Reading.Fits, room_add_one h.1]
    exact ⟨.object List.nodup_nil (by simp), h.2⟩
  · cases hnext
    exact ⟨⟨h.1, List.nodup_nil, by simp⟩, h.2⟩
  · cases hnext
    exact h
  · cases hnext
    exact h
  -- a value is complete, inside an array or inside an object
  · cases hnext
    obtain ⟨hv, ⟨hlt, hitems⟩, hframes⟩ := h
    exact ⟨⟨hlt, List.forall_mem_cons.2 ⟨hv, hitems⟩⟩, hframes⟩
  · cases hnext
    obtain ⟨hv, ⟨hlt, hitems⟩, hframes⟩ := h
    rw [Reading.Fits, room_add_one hlt]
    refine ⟨.array fun w hw => ?_, hframes⟩
    exact List.forall_mem_cons.2 ⟨hv, hitems⟩ w (List.mem_reverse.1 hw)
  · cases hnext
    obtain ⟨hv, hmembers, hframes⟩ := h
    exact ⟨hmembers.put _ hv, hframes⟩
  · cases hnext
    obtain ⟨hv, hmembers, hframes⟩ := h
    have hput := fun key => hmembers.put key hv
    rw [Reading.Fits, room_add_one hmembers.lt]
    exact ⟨.object (hput _).nodup_keys (hput _).fits, hframes⟩
  · cases hnext

/-- What has been read fits after any tokens. -/
theorem Fits.run (h : reading.Fits) (hts : ∀ t ∈ ts, t.Fits) (hrun : reading.run ts = some after) :
    after.Fits := by
  induction ts generalizing reading with
  | nil =>
    cases hrun
    exact h
  | cons t ts ih =>
    obtain ⟨mid, hnext, hrun⟩ := Option.bind_eq_some_iff.1 hrun
    have hmid := h.next (hts t List.mem_cons_self) hnext
    exact ih hmid (fun u hu => hts u (List.mem_cons_of_mem _ hu)) hrun

end Reading

/-- **What is read fits the limit.** -/
theorem fits_of_read? {s : String} (h : read? s = some v) : v.Fits maxNesting := by
  simp only [read?, Option.bind_eq_bind, Option.bind_eq_some_iff] at h
  obtain ⟨ts, htokens, reading, hrun, hresult⟩ := h
  have hstart : (Reading.value []).Fits := trivial
  have hfits := hstart.run (fits_of_tokens? htokens) hrun
  unfold Reading.result? at hresult
  split at hresult
  · cases hresult
    exact hfits.1
  · cases hresult

/-! ### Its numbers -/

theorem mem_itemNumbers_iff {m : JsonNumber} :
    m ∈ itemNumbers items ↔ ∃ v ∈ items, m ∈ v.numbers := by
  induction items with
  | nil => simp [itemNumbers]
  | cons v rest ih => simp [itemNumbers, ih]

theorem mem_memberNumbers_iff {m : JsonNumber} :
    m ∈ memberNumbers members ↔ ∃ member ∈ members, m ∈ member.2.numbers := by
  induction members with
  | nil => simp [memberNumbers]
  | cons member rest ih => simp [memberNumbers, ih]

theorem Fits.inRange (h : v.Fits n) {m : JsonNumber} (hm : m ∈ v.numbers) : m.InRange := by
  induction h with
  | null | bool | string => cases hm
  | number h =>
    rw [List.mem_singleton.1 hm]
    exact h
  | array _ ih =>
    obtain ⟨v, hv, hm⟩ := mem_itemNumbers_iff.1 hm
    exact ih v hv hm
  | object _ _ ih =>
    obtain ⟨member, hmember, hm⟩ := mem_memberNumbers_iff.1 hm
    exact ih member hmember hm

/-- The numbers of a value that fits are read back if its doubles are. -/
theorem Fits.isReread (h : v.Fits n) (hdoubles : ∀ d, .double d ∈ v.numbers → d.IsReread)
    {m : JsonNumber} (hm : m ∈ v.numbers) : m.IsReread := by
  cases m with
  | whole k => exact JsonNumber.isReread_whole (h.inRange hm)
  | double d => exact hdoubles d hm

end FeatureQuery.Json
