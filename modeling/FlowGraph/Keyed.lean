/-!
# Ordered key-value lists

A `Keyed α` maps text keys to values and remembers the order in which the keys first came.
`insert` keeps the place of a key that is already there and takes the new value, so the order
of a table never depends on how often a key was written.
-/

namespace FlowGraph

/-- A table from text keys to values, in order of first insertion. -/
abbrev Keyed (α : Type) := List (String × α)

namespace Keyed

variable {α β : Type}

/-- The value stored under `key`, if any. -/
def get? : Keyed α → String → Option α
  | [], _ => none
  | (k, v) :: rest, key => if k = key then some v else get? rest key

/-- Whether `key` has a value. -/
def contains (table : Keyed α) (key : String) : Bool :=
  (get? table key).isSome

/-- Store `value` under `key`: in place when the key is known, at the end otherwise. -/
def insert : Keyed α → String → α → Keyed α
  | [], key, value => [(key, value)]
  | (k, v) :: rest, key, value =>
    if k = key then (k, value) :: rest else (k, v) :: insert rest key value

/-- Remove `key` and its value. -/
def erase (table : Keyed α) (key : String) : Keyed α :=
  table.filter fun entry => entry.1 ≠ key

/-- Change the value under `key`, if there is one. -/
def modify (table : Keyed α) (key : String) (change : α → α) : Keyed α :=
  table.map fun entry => if entry.1 = key then (entry.1, change entry.2) else entry

/-- The keys in order. -/
def keys (table : Keyed α) : List String :=
  table.map Prod.fst

/-- Insert the entries one after the other: a repeated key keeps its first place and takes
its last value. -/
def ofEntries (entries : List (String × α)) : Keyed α :=
  entries.foldl (fun table entry => insert table entry.1 entry.2) []

/-- No key comes twice. -/
def Distinct (table : Keyed α) : Prop :=
  (keys table).Nodup

instance (table : Keyed α) : Decidable (Distinct table) :=
  inferInstanceAs (Decidable (keys table).Nodup)

@[simp] theorem get?_nil (key : String) : get? ([] : Keyed α) key = none := rfl

theorem get?_cons (k : String) (v : α) (rest : Keyed α) (key : String) :
    get? ((k, v) :: rest) key = if k = key then some v else get? rest key := rfl

/-- A key just written has the value just written. -/
@[simp] theorem get?_insert_self (table : Keyed α) (key : String) (value : α) :
    get? (insert table key value) key = some value := by
  induction table with
  | nil => simp [insert, get?]
  | cons entry rest ih =>
    obtain ⟨k, v⟩ := entry
    by_cases h : k = key <;> simp [insert, get?, h, ih]

/-- The value under a key stands in the table. -/
theorem mem_of_get? {table : Keyed α} {key : String} {value : α}
    (h : get? table key = some value) : (key, value) ∈ table := by
  induction table with
  | nil => simp at h
  | cons entry rest ih =>
    obtain ⟨k, v⟩ := entry
    by_cases hk : k = key
    · simp_all [get?]
    · exact List.mem_cons_of_mem _ (ih (by simpa [get?, hk] using h))

/-- Writing a key adds no other entry. -/
theorem mem_insert {table : Keyed α} {key : String} {value : α} {entry : String × α}
    (h : entry ∈ insert table key value) : entry = (key, value) ∨ entry ∈ table := by
  induction table with
  | nil => exact Or.inl (List.mem_singleton.1 h)
  | cons old rest ih =>
    obtain ⟨k, v⟩ := old
    by_cases hk : k = key
    · subst hk
      rw [insert, if_pos rfl] at h
      exact (List.mem_cons.1 h).imp_right (List.mem_cons_of_mem _)
    · rw [insert, if_neg hk] at h
      rcases List.mem_cons.1 h with rfl | h
      · exact Or.inr List.mem_cons_self
      · exact (ih h).imp_right (List.mem_cons_of_mem _)

/-- Writing one key leaves every other key as it was. -/
theorem get?_insert_of_ne (table : Keyed α) {key other : String} (value : α)
    (h : other ≠ key) : get? (insert table key value) other = get? table other := by
  induction table with
  | nil => simp [insert, get?, Ne.symm h]
  | cons entry rest ih =>
    obtain ⟨k, v⟩ := entry
    by_cases hk : k = key
    · subst hk
      simp [insert, get?, Ne.symm h]
    · simp [insert, get?, hk, ih]

theorem get?_insert (table : Keyed α) (key other : String) (value : α) :
    get? (insert table key value) other = if key = other then some value else get? table other := by
  by_cases h : key = other
  · subst h
    simp
  · rw [if_neg h, get?_insert_of_ne table value (Ne.symm h)]

/-- A key that was removed has no value. -/
@[simp] theorem get?_erase_self (table : Keyed α) (key : String) :
    get? (erase table key) key = none := by
  induction table with
  | nil => rfl
  | cons entry rest ih =>
    by_cases h : entry.1 = key
    · simpa [erase, h] using ih
    · simpa [erase, h, get?] using ih

/-- Removing one key leaves every other key as it was. -/
theorem get?_erase_of_ne (table : Keyed α) {key other : String} (h : other ≠ key) :
    get? (erase table key) other = get? table other := by
  induction table with
  | nil => rfl
  | cons entry rest ih =>
    obtain ⟨k, v⟩ := entry
    by_cases hk : k = key
    · subst hk
      simpa [erase, get?, Ne.symm h] using ih
    · by_cases ho : k = other
      · subst ho
        simp [erase, get?, hk]
      · simpa [erase, get?, hk, ho] using ih

/-- A change under one key is seen under that key only. -/
theorem get?_modify (table : Keyed α) (key other : String) (change : α → α) :
    get? (modify table key change) other =
      if key = other then (get? table other).map change else get? table other := by
  induction table with
  | nil => simp [modify]
  | cons entry rest ih =>
    obtain ⟨k, v⟩ := entry
    by_cases hk : k = key
    · subst hk
      by_cases ho : k = other <;> simp_all [modify, get?]
    · by_cases ho : k = other
      · subst ho
        simp [modify, get?, hk, Ne.symm hk]
      · simpa [modify, get?, hk, ho] using ih

/-- A change of every value is seen under each key. -/
theorem get?_map (table : Keyed α) (change : α → β) (key : String) :
    get? (table.map fun entry => (entry.1, change entry.2)) key = (get? table key).map change := by
  induction table with
  | nil => rfl
  | cons entry rest ih =>
    by_cases h : entry.1 = key
    · simp [get?, h]
    · simpa [get?, h] using ih

theorem contains_insert (table : Keyed α) (key other : String) (value : α) :
    contains (insert table key value) other = (key = other || contains table other) := by
  by_cases h : key = other <;> simp [contains, get?_insert, h]

theorem contains_modify (table : Keyed α) (key other : String) (change : α → α) :
    contains (modify table key change) other = contains table other := by
  by_cases h : key = other <;> simp [contains, get?_modify, h]

/-- The keys that have a value are those of the entries. -/
theorem mem_keys_iff (table : Keyed α) (key : String) :
    key ∈ keys table ↔ (get? table key).isSome := by
  induction table with
  | nil => simp [keys]
  | cons entry rest ih =>
    obtain ⟨k, v⟩ := entry
    by_cases h : k = key
    · simp [keys, get?, h]
    · simpa [keys, get?, h, Ne.symm h] using ih

theorem mem_keys_of_get? {table : Keyed α} {key : String} {value : α}
    (h : get? table key = some value) : key ∈ keys table := by
  rw [mem_keys_iff, h]
  rfl

theorem exists_of_mem_keys {table : Keyed α} {key : String} (h : key ∈ keys table) :
    ∃ value, get? table key = some value :=
  Option.isSome_iff_exists.1 ((mem_keys_iff table key).1 h)

theorem get?_eq_none_iff {table : Keyed α} {key : String} :
    get? table key = none ↔ key ∉ keys table := by
  rw [mem_keys_iff, Option.not_isSome_iff_eq_none]

/-- A known key keeps its place, a new one comes last. -/
theorem keys_insert (table : Keyed α) (key : String) (value : α) :
    keys (insert table key value) =
      if key ∈ keys table then keys table else keys table ++ [key] := by
  induction table with
  | nil => simp [keys, insert]
  | cons entry rest ih =>
    obtain ⟨k, v⟩ := entry
    by_cases h : k = key
    · simp [keys, insert, h]
    · simp only [keys, insert, h, if_false, List.map_cons] at ih ⊢
      rw [ih]
      by_cases hm : key ∈ List.map Prod.fst rest <;> simp [hm, Ne.symm h]

/-- A change of a value keeps the keys. -/
theorem keys_modify (table : Keyed α) (key : String) (change : α → α) :
    keys (modify table key change) = keys table := by
  simp only [keys, modify, List.map_map]
  refine List.map_congr_left fun entry _ => ?_
  simp only [Function.comp_apply]
  split <;> rfl

theorem keys_erase (table : Keyed α) (key : String) :
    keys (erase table key) = (keys table).filter fun other => other ≠ key := by
  rw [keys, erase, keys, List.filter_map]
  rfl

/-- A new key comes last. -/
theorem insert_of_not_mem {table : Keyed α} {key : String} (value : α) (h : key ∉ keys table) :
    insert table key value = table ++ [(key, value)] := by
  induction table with
  | nil => rfl
  | cons entry rest ih =>
    obtain ⟨k, v⟩ := entry
    simp only [keys, List.map_cons, List.mem_cons, not_or] at h ih
    rw [insert, if_neg (Ne.symm h.1), ih h.2]
    rfl

/-- A key that is not there cannot be changed. -/
theorem modify_of_not_mem {table : Keyed α} {key : String} (change : α → α)
    (h : key ∉ keys table) : modify table key change = table := by
  rw [modify]
  conv => rhs; rw [← List.map_id table]
  refine List.map_congr_left fun entry hentry => ?_
  rw [if_neg]
  · rfl
  · rintro rfl
    exact h (List.mem_map.2 ⟨entry, hentry, rfl⟩)

@[simp] theorem modify_id (table : Keyed α) (key : String) :
    modify table key (fun value => value) = table := by
  rw [modify]
  conv => rhs; rw [← List.map_id table]
  refine List.map_congr_left fun entry _ => ?_
  split <;> rfl

/-- With distinct keys, an entry is what is found under its key. -/
theorem Distinct.get?_of_mem {table : Keyed α} (h : Distinct table) {key : String} {value : α}
    (hmem : (key, value) ∈ table) : get? table key = some value := by
  induction table with
  | nil => cases hmem
  | cons entry rest ih =>
    obtain ⟨k, v⟩ := entry
    simp only [Distinct, keys, List.map_cons, List.nodup_cons] at h ih
    rcases List.mem_cons.1 hmem with heq | hrest
    · obtain ⟨rfl, rfl⟩ := Prod.mk.inj heq
      rw [get?, if_pos rfl]
    · rw [get?, if_neg, ih h.2 hrest]
      rintro rfl
      exact h.1 (List.mem_map.2 ⟨_, hrest, rfl⟩)

/-- Insertion keeps the keys distinct. -/
theorem Distinct.insert {table : Keyed α} (h : Distinct table) (key : String) (value : α) :
    Distinct (Keyed.insert table key value) := by
  unfold Distinct at h ⊢
  rw [keys_insert]
  split
  · exact h
  · next hm => exact List.nodup_append.2 ⟨h, by simp, fun a ha b hb => by
      rw [List.mem_singleton] at hb
      exact fun he => hm (hb ▸ he ▸ ha)⟩

/-- A table made of entries has distinct keys, however often they came. -/
theorem distinct_ofEntries (entries : List (String × α)) : Distinct (ofEntries entries) := by
  suffices h : ∀ table : Keyed α, Distinct table →
      Distinct (entries.foldl (fun table entry => insert table entry.1 entry.2) table) by
    exact h [] (by simp [Distinct, keys])
  induction entries with
  | nil => exact fun _ h => h
  | cons entry rest ih => exact fun table h => ih _ (h.insert entry.1 entry.2)

end Keyed

end FlowGraph
