/-!
# Entries in order

A list of named entries keeps the order in which the names first came up: `Entries.put` changes the
value of a name in its place, and adds a new name at the end. Taking a name out is quick and does
not keep the order: `Entries.swapRemove` brings the last entry into its place. `OrderedMap` is such
a list without repeated names. Main statements: the names after `put` (`keys_put`), and what is
found under them (`get?_put_self`, `get?_put_of_ne`).
-/

namespace FeatureQuery

variable {α : Type}

namespace Entries

/-- The names, in order. -/
def keys (entries : List (String × α)) : List String := entries.map Prod.fst

/-- The value under a name. -/
def get? (key : String) : List (String × α) → Option α
  | [] => none
  | (k, v) :: rest => if k = key then some v else get? key rest

/-- Gives a name a value: in the place of the name, or at the end if the name is new. -/
def put (key : String) (value : α) : List (String × α) → List (String × α)
  | [] => [(key, value)]
  | (k, v) :: rest => if k = key then (k, value) :: rest else (k, v) :: put key value rest

/-- Takes a name out. The last entry comes into its place. -/
def swapRemove (key : String) : List (String × α) → List (String × α)
  | [] => []
  | (k, v) :: rest =>
    if k = key then
      match rest.getLast? with
      | some last => last :: rest.dropLast
      | none => []
    else (k, v) :: swapRemove key rest

/-- Takes names out, one after the other. -/
def swapRemoveAll (names : List String) (entries : List (String × α)) : List (String × α) :=
  names.foldl (fun entries name => swapRemove name entries) entries

@[simp] theorem keys_nil : keys ([] : List (String × α)) = [] := rfl

@[simp] theorem keys_cons (entry : String × α) (entries : List (String × α)) :
    keys (entry :: entries) = entry.1 :: keys entries := rfl

/-- Putting a value keeps the names and their order, and adds a new name at the end. -/
theorem keys_put (key : String) (value : α) (entries : List (String × α)) :
    keys (put key value entries) =
      if key ∈ keys entries then keys entries else keys entries ++ [key] := by
  induction entries with
  | nil => simp [put]
  | cons entry rest ih =>
    obtain ⟨k, v⟩ := entry
    by_cases h : k = key
    · simp [put, h]
    · have h' : ¬ key = k := fun e => h e.symm
      by_cases hm : key ∈ keys rest <;> simp [put, h, h', ih, hm]

theorem nodup_keys_put {entries : List (String × α)} (h : (keys entries).Nodup) (key : String)
    (value : α) : (keys (put key value entries)).Nodup := by
  rw [keys_put]
  split
  · exact h
  · rename_i hm
    refine List.nodup_append.2 ⟨h, by simp, ?_⟩
    intro a ha b hb
    rw [List.mem_singleton.1 hb]
    rintro rfl
    exact hm ha

theorem get?_put_self (key : String) (value : α) (entries : List (String × α)) :
    get? key (put key value entries) = some value := by
  induction entries with
  | nil => simp [put, get?]
  | cons entry rest ih =>
    obtain ⟨k, v⟩ := entry
    by_cases h : k = key <;> simp [put, get?, h, ih]

theorem get?_put_of_ne {key other : String} (h : other ≠ key) (value : α)
    (entries : List (String × α)) : get? other (put key value entries) = get? other entries := by
  induction entries with
  | nil => simp [put, get?, Ne.symm h]
  | cons entry rest ih =>
    obtain ⟨k, v⟩ := entry
    by_cases hk : k = key
    · subst hk
      simp [put, get?, Ne.symm h]
    · simp only [put, if_neg hk, get?, ih]

theorem mem_of_get? {key : String} {value : α} {entries : List (String × α)}
    (h : get? key entries = some value) : (key, value) ∈ entries := by
  induction entries with
  | nil => simp [get?] at h
  | cons entry rest ih =>
    obtain ⟨k, v⟩ := entry
    simp only [get?] at h
    split at h
    · simp_all
    · exact List.mem_cons_of_mem _ (ih h)

end Entries

/-- Named values in the order in which the names first came up. -/
structure OrderedMap (α : Type) where
  /-- The names with their values. -/
  entries : List (String × α)
  /-- No name comes up twice. -/
  nodup_keys : (Entries.keys entries).Nodup

namespace OrderedMap

instance [DecidableEq α] : DecidableEq (OrderedMap α) := fun m n =>
  decidable_of_iff (m.entries = n.entries) <| by
    constructor
    · intro h
      cases m; cases n
      simpa using h
    · rintro rfl
      rfl

/-- The map without entries. -/
def empty : OrderedMap α := ⟨[], List.nodup_nil⟩

instance : Inhabited (OrderedMap α) := ⟨empty⟩

/-- The names, in order. -/
def keys (m : OrderedMap α) : List String := Entries.keys m.entries

/-- The value under a name. -/
def get? (m : OrderedMap α) (key : String) : Option α := Entries.get? key m.entries

/-- Gives a name a value. -/
def put (m : OrderedMap α) (key : String) (value : α) : OrderedMap α :=
  ⟨Entries.put key value m.entries, Entries.nodup_keys_put m.nodup_keys key value⟩

/-- Puts the entries of a list one after the other. -/
def ofList (entries : List (String × α)) : OrderedMap α :=
  entries.foldl (fun m entry => m.put entry.1 entry.2) empty

@[simp] theorem get?_put_self (m : OrderedMap α) (key : String) (value : α) :
    (m.put key value).get? key = some value :=
  Entries.get?_put_self key value m.entries

theorem get?_put_of_ne (m : OrderedMap α) {key other : String} (h : other ≠ key) (value : α) :
    (m.put key value).get? other = m.get? other :=
  Entries.get?_put_of_ne h value m.entries

end OrderedMap

end FeatureQuery
