import FeatureQuery.Entries

/-!
# Entries put, found and taken out

What a list of entries holds after values were put (`mem_put`, `put_of_notMem`, `put_put`), what is
found under a name (`get?_eq_some_iff`, `get?_append`), what is left after names were taken out, in
whatever order (`swapRemoveAll_perm`), and that an ordered map is the map of its own entries
(`OrderedMap.ofList_entries`).
-/

namespace FeatureQuery

variable {α : Type}

namespace Entries

variable {key : String} {value : α} {entries : List (String × α)}

/-- A name that is new is put at the end. -/
theorem put_of_notMem (h : key ∉ keys entries) (value : α) :
    put key value entries = entries ++ [(key, value)] := by
  induction entries with
  | nil => rfl
  | cons entry rest ih =>
    rw [keys_cons, List.mem_cons, not_or] at h
    rw [put, if_neg (Ne.symm h.1), ih h.2, List.cons_append]

/-- Where no name comes up twice, an entry is put behind those before it. -/
theorem put_of_nodup {entry : String × α} {before rest : List (String × α)}
    (h : (keys (before ++ entry :: rest)).Nodup) :
    put entry.1 entry.2 before = before ++ [entry] := by
  refine put_of_notMem (fun hmem => ?_) entry.2
  simp only [keys, List.map_append, List.map_cons, List.nodup_append] at h
  exact h.2.2 entry.1 hmem entry.1 List.mem_cons_self rfl

/-- Of two values that are put under a name the second one stays. -/
theorem put_put (key : String) (first second : α) (entries : List (String × α)) :
    put key second (put key first entries) = put key second entries := by
  induction entries with
  | nil => simp [put]
  | cons entry rest ih =>
    obtain ⟨k, v⟩ := entry
    by_cases h : k = key <;> simp [put, h, ih]

/-- What is found after a value was put was there before, or it is that value. -/
theorem mem_put {entry : String × α} (h : entry ∈ put key value entries) :
    entry = (key, value) ∨ entry ∈ entries := by
  induction entries with
  | nil => exact .inl (List.mem_singleton.1 h)
  | cons first rest ih =>
    rw [put] at h
    split at h
    · rename_i hkey
      rw [hkey] at h
      exact (List.mem_cons.1 h).imp_right (List.mem_cons_of_mem _)
    · obtain rfl | h := List.mem_cons.1 h
      · exact .inr List.mem_cons_self
      · exact (ih h).imp_right (List.mem_cons_of_mem _)

/-- A name that the first list lacks is looked for in the second. -/
theorem get?_append (h : key ∉ keys entries) (more : List (String × α)) :
    get? key (entries ++ more) = get? key more := by
  induction entries with
  | nil => rfl
  | cons entry rest ih =>
    rw [keys_cons, List.mem_cons, not_or] at h
    rw [List.cons_append, get?, if_neg (Ne.symm h.1), ih h.2]

theorem get?_eq_none (h : key ∉ keys entries) : get? key entries = none := by
  simpa [get?] using get?_append h []

/-- **What is found under a name**, where no name comes up twice, is what is listed with it. -/
theorem get?_eq_some_iff (h : (keys entries).Nodup) :
    get? key entries = some value ↔ (key, value) ∈ entries := by
  refine ⟨mem_of_get?, fun hmem => ?_⟩
  induction entries with
  | nil => simp at hmem
  | cons entry rest ih =>
    obtain ⟨hnew, hrest⟩ := List.nodup_cons.mp h
    rcases List.mem_cons.mp hmem with rfl | hmem
    · exact if_pos rfl
    · have hne : entry.1 ≠ key := fun heq => hnew (heq ▸ List.mem_map_of_mem (f := Prod.fst) hmem)
      rw [get?, if_neg hne]
      exact ih hrest hmem

/-! ### Names taken out -/

/-- What is left after a name was taken out, where no name comes up twice. -/
theorem swapRemove_perm (h : (keys entries).Nodup) (key : String) :
    (swapRemove key entries).Perm (entries.filter fun entry => entry.1 ≠ key) := by
  induction entries with
  | nil => exact .nil
  | cons entry rest ih =>
    obtain ⟨hnew, hrest⟩ := List.nodup_cons.mp h
    by_cases hkey : entry.1 = key
    · have hkept : ∀ other ∈ rest, decide (other.1 ≠ key) = true := by
        intro other hother
        have hne : other.1 ≠ key := by
          rintro rfl
          exact hnew (hkey ▸ List.mem_map_of_mem hother)
        exact decide_eq_true hne
      rw [swapRemove, if_pos hkey, List.filter_cons_of_neg (by simpa using hkey),
        List.filter_eq_self.2 hkept]
      -- the last entry moves to the front of what follows the name
      cases hlast : rest.getLast? with
      | none => rw [List.getLast?_eq_none_iff.1 hlast]
      | some last =>
        obtain ⟨before, rfl⟩ := List.getLast?_eq_some_iff.1 hlast
        rw [List.dropLast_concat]
        exact (List.perm_append_singleton last before).symm
    · rw [swapRemove, if_neg hkey, List.filter_cons_of_pos (by simpa using hkey)]
      exact (ih hrest).cons entry

/-- **What is left after names were taken out** are the entries of the other names. The order in
which the names are taken out only changes the order of what is left. -/
theorem swapRemoveAll_perm (names : List String) (h : (keys entries).Nodup) :
    (swapRemoveAll names entries).Perm (entries.filter fun entry => !names.contains entry.1) := by
  induction names generalizing entries with
  | nil => exact .of_eq (List.filter_eq_self.2 fun _ _ => rfl).symm
  | cons name rest ih =>
    have hfirst := swapRemove_perm h name
    have hnodup : (keys (swapRemove name entries)).Nodup :=
      (hfirst.map Prod.fst).nodup_iff.2 (h.sublist (List.filter_sublist.map Prod.fst))
    refine (ih hnodup).trans ((hfirst.filter _).trans (.of_eq ?_))
    rw [List.filter_filter]
    refine List.filter_congr fun entry _ => ?_
    by_cases hname : entry.1 = name <;> simp [hname]

example : swapRemoveAll ["a"] [("a", 1), ("b", 2), ("c", 3), ("d", 4)] =
    [("d", 4), ("b", 2), ("c", 3)] := by
  decide

end Entries

namespace OrderedMap

variable {m : OrderedMap α} {entries : List (String × α)} {entry : String × α}

theorem ext {m n : OrderedMap α} (h : m.entries = n.entries) : m = n := by
  cases m
  cases n
  cases h
  rfl

theorem put_put (m : OrderedMap α) (key : String) (first second : α) :
    (m.put key first).put key second = m.put key second :=
  ext (Entries.put_put key first second m.entries)

theorem mem_of_mem_foldl_put
    (h : entry ∈ (entries.foldl (fun m entry => m.put entry.1 entry.2) m).entries) :
    entry ∈ m.entries ∨ entry ∈ entries := by
  induction entries generalizing m with
  | nil => exact .inl h
  | cons first rest ih =>
    obtain h | h := ih h
    · obtain rfl | h := Entries.mem_put h
      · exact .inr List.mem_cons_self
      · exact .inl h
    · exact .inr (List.mem_cons_of_mem _ h)

/-- What the map of a list holds is in the list. -/
theorem mem_of_mem_ofList (h : entry ∈ (ofList entries).entries) : entry ∈ entries :=
  (mem_of_mem_foldl_put h).resolve_left List.not_mem_nil

theorem entries_foldl_put (h : (Entries.keys (m.entries ++ entries)).Nodup) :
    (entries.foldl (fun m entry => m.put entry.1 entry.2) m).entries = m.entries ++ entries := by
  induction entries generalizing m with
  | nil => exact (List.append_nil _).symm
  | cons first rest ih =>
    have hput : (m.put first.1 first.2).entries = m.entries ++ [first] := Entries.put_of_nodup h
    have hmore : m.entries ++ first :: rest = (m.put first.1 first.2).entries ++ rest := by
      rw [hput, List.append_assoc, List.singleton_append]
    rw [hmore] at h ⊢
    exact ih h

/-- **An ordered map is the map of its entries.** -/
theorem ofList_entries (m : OrderedMap α) : ofList m.entries = m :=
  ext (entries_foldl_put m.nodup_keys)

end OrderedMap

end FeatureQuery
