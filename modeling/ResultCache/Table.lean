/-!
# Tables

Finite maps with decidable keys, kept in the order in which the keys were first set.
-/

namespace ResultCache

/-- A finite map, its entries in the order in which their keys were first set. -/
structure Table (κ α : Type) where
  entries : List (κ × α)
  distinct : (entries.map Prod.fst).Nodup

namespace Table

variable {κ α : Type} [DecidableEq κ]

/-- Sets the entry of a key in place, or at the end. -/
def setEntry (key : κ) (value : α) : List (κ × α) → List (κ × α)
  | [] => [(key, value)]
  | entry :: rest =>
    if entry.1 = key then (key, value) :: rest else entry :: setEntry key value rest

theorem keys_setEntry (key : κ) (value : α) (entries : List (κ × α)) :
    (setEntry key value entries).map Prod.fst =
      if key ∈ entries.map Prod.fst then entries.map Prod.fst
      else entries.map Prod.fst ++ [key] := by
  induction entries with
  | nil => simp [setEntry]
  | cons entry rest ih =>
    rw [setEntry]
    by_cases h : entry.1 = key
    · simp [h]
    · rw [if_neg h, List.map_cons, ih, List.map_cons]
      by_cases hk : key ∈ rest.map Prod.fst
      · rw [if_pos hk, if_pos (List.mem_cons_of_mem _ hk)]
      · rw [if_neg hk, if_neg (by simp [hk, Ne.symm h]), List.cons_append]

theorem lookup_cons_ite (entry : κ × α) (rest : List (κ × α)) (key : κ) :
    (entry :: rest).lookup key = if key = entry.1 then some entry.2 else rest.lookup key := by
  obtain ⟨k, v⟩ := entry
  by_cases h : key = k
  · subst h
    simp
  · simp [List.lookup_cons, beq_false_of_ne h, h]

theorem lookup_setEntry (key other : κ) (value : α) (entries : List (κ × α)) :
    (setEntry key value entries).lookup other =
      if other = key then some value else entries.lookup other := by
  induction entries with
  | nil => simp [setEntry, lookup_cons_ite]
  | cons entry rest ih =>
    rw [setEntry]
    by_cases hk : entry.1 = key
    · rw [if_pos hk, lookup_cons_ite, lookup_cons_ite, hk]
      by_cases h : other = key <;> simp [h]
    · rw [if_neg hk, lookup_cons_ite, lookup_cons_ite, ih]
      by_cases h : other = entry.1
      · simp [h, hk]
      · simp [h]

theorem lookup_filter_ne (key other : κ) (entries : List (κ × α)) :
    (entries.filter fun e => e.1 ≠ key).lookup other =
      if other = key then none else entries.lookup other := by
  induction entries with
  | nil => simp
  | cons entry rest ih =>
    rw [lookup_cons_ite, List.filter_cons]
    by_cases hk : entry.1 = key
    · rw [if_neg (by simp [hk]), ih]
      by_cases h : other = key <;> simp [h, hk]
    · rw [if_pos (by simp [hk]), lookup_cons_ite, ih]
      by_cases h : other = entry.1
      · simp [h, hk]
      · simp [h]

def empty : Table κ α := ⟨[], List.nodup_nil⟩

instance : Inhabited (Table κ α) := ⟨empty⟩

def find? (t : Table κ α) (key : κ) : Option α := t.entries.lookup key

def contains (t : Table κ α) (key : κ) : Bool := (t.find? key).isSome

def set (t : Table κ α) (key : κ) (value : α) : Table κ α where
  entries := setEntry key value t.entries
  distinct := by
    rw [keys_setEntry]
    split
    · exact t.distinct
    · rename_i h
      exact List.nodup_append.mpr
        ⟨t.distinct, List.pairwise_singleton _ _, fun a ha b hb => by
          rw [List.mem_singleton.mp hb]
          exact fun e => h (e ▸ ha)⟩

def erase (t : Table κ α) (key : κ) : Table κ α where
  entries := t.entries.filter fun e => e.1 ≠ key
  distinct := t.distinct.sublist (List.filter_sublist.map _)

/-- The table of a list of entries; of two with one key the later counts. -/
def ofList (entries : List (κ × α)) : Table κ α :=
  entries.foldl (fun t e => t.set e.1 e.2) empty

def keys (t : Table κ α) : List κ := t.entries.map Prod.fst

def size (t : Table κ α) : Nat := t.entries.length

def isEmpty (t : Table κ α) : Bool := t.entries.isEmpty

@[simp] theorem find?_empty (key : κ) : (empty : Table κ α).find? key = none := rfl

@[simp] theorem find?_set (t : Table κ α) (key other : κ) (value : α) :
    (t.set key value).find? other = if other = key then some value else t.find? other :=
  lookup_setEntry key other value t.entries

@[simp] theorem find?_erase (t : Table κ α) (key other : κ) :
    (t.erase key).find? other = if other = key then none else t.find? other :=
  lookup_filter_ne key other t.entries

theorem lookup_eq_some_iff {entries : List (κ × α)} (distinct : (entries.map Prod.fst).Nodup)
    (key : κ) (value : α) : entries.lookup key = some value ↔ (key, value) ∈ entries := by
  induction entries with
  | nil => simp
  | cons entry rest ih =>
    have hd := List.nodup_cons.mp distinct
    rw [lookup_cons_ite, List.mem_cons]
    by_cases h : key = entry.1
    · have hrest : (key, value) ∉ rest := fun hm => hd.1 (h ▸ List.mem_map_of_mem hm)
      rw [if_pos h, or_iff_left hrest, Option.some.injEq]
      exact ⟨fun hv => Prod.ext h hv.symm, fun he => (congrArg Prod.snd he).symm⟩
    · have hentry : (key, value) ≠ entry := fun he => h (congrArg Prod.fst he)
      rw [if_neg h, ih hd.2, or_iff_right hentry]

theorem find?_eq_some_iff (t : Table κ α) (key : κ) (value : α) :
    t.find? key = some value ↔ (key, value) ∈ t.entries :=
  lookup_eq_some_iff t.distinct key value

theorem find?_eq_of_perm {t u : Table κ α} (h : t.entries.Perm u.entries) :
    t.find? = u.find? := by
  funext key
  refine Option.ext fun value => ?_
  rw [find?_eq_some_iff, find?_eq_some_iff, h.mem_iff]

theorem mem_keys_iff (t : Table κ α) (key : κ) : key ∈ t.keys ↔ t.contains key = true := by
  rw [contains, Option.isSome_iff_exists, keys, List.mem_map]
  constructor
  · rintro ⟨entry, hm, rfl⟩
    exact ⟨entry.2, (find?_eq_some_iff t _ _).mpr hm⟩
  · rintro ⟨value, hv⟩
    exact ⟨(key, value), (find?_eq_some_iff t key value).mp hv, rfl⟩

@[simp] theorem contains_empty (key : κ) : (empty : Table κ α).contains key = false := rfl

@[simp] theorem contains_set (t : Table κ α) (key other : κ) (value : α) :
    (t.set key value).contains other = (decide (other = key) || t.contains other) := by
  by_cases h : other = key <;> simp [contains, h]

@[simp] theorem contains_erase (t : Table κ α) (key other : κ) :
    (t.erase key).contains other = (!decide (other = key) && t.contains other) := by
  by_cases h : other = key <;> simp [contains, h]

end Table
end ResultCache
