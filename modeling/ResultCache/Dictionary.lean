import ResultCache.Table

/-!
# Dictionaries

Finite maps from texts, kept in ascending order of the names. The order of texts is that of their
code points, which is also that of their UTF-8 bytes.
-/

namespace ResultCache

/-- A finite map from texts, its entries in strictly ascending order. -/
structure Dictionary (α : Type) where
  entries : List (String × α)
  ascending : entries.Pairwise fun a b => a.1 < b.1

namespace Dictionary

variable {α β : Type}

/-- Sets the entry of a name in an ascending list. -/
def insertEntry (name : String) (value : α) : List (String × α) → List (String × α)
  | [] => [(name, value)]
  | entry :: rest =>
    if name < entry.1 then (name, value) :: entry :: rest
    else if name = entry.1 then (name, value) :: rest
    else entry :: insertEntry name value rest

theorem mem_insertEntry {name : String} {value : α} {entries : List (String × α)}
    {e : String × α} (h : e ∈ insertEntry name value entries) :
    e = (name, value) ∨ e ∈ entries := by
  induction entries with
  | nil => exact Or.inl (List.mem_singleton.mp h)
  | cons entry rest ih =>
    rw [insertEntry] at h
    split at h
    · exact (List.mem_cons.mp h).imp id id
    · split at h
      · exact (List.mem_cons.mp h).imp id (List.mem_cons_of_mem _)
      · rcases List.mem_cons.mp h with h | h
        · exact Or.inr (h ▸ List.mem_cons_self)
        · exact (ih h).imp id (List.mem_cons_of_mem _)

theorem ascending_insertEntry {name : String} {value : α} {entries : List (String × α)}
    (h : entries.Pairwise fun a b => a.1 < b.1) :
    (insertEntry name value entries).Pairwise fun a b => a.1 < b.1 := by
  induction entries with
  | nil => exact List.pairwise_singleton _ _
  | cons entry rest ih =>
    have hr := List.pairwise_cons.mp h
    rw [insertEntry]
    split
    · rename_i hlt
      refine List.pairwise_cons.mpr ⟨fun b hb => ?_, h⟩
      rcases List.mem_cons.mp hb with rfl | hb
      · exact hlt
      · exact String.lt_trans hlt (hr.1 b hb)
    · split
      · rename_i heq
        exact List.pairwise_cons.mpr ⟨fun b hb => heq ▸ hr.1 b hb, hr.2⟩
      · rename_i hlt hne
        refine List.pairwise_cons.mpr ⟨fun b hb => ?_, ih hr.2⟩
        rcases mem_insertEntry hb with rfl | hb
        · exact String.not_le.mp fun hle => hne (String.le_antisymm hle (String.not_lt.mp hlt))
        · exact hr.1 b hb

theorem lookup_insertEntry (name other : String) (value : α) (entries : List (String × α)) :
    (insertEntry name value entries).lookup other =
      if other = name then some value else entries.lookup other := by
  induction entries with
  | nil => simp [insertEntry, Table.lookup_cons_ite]
  | cons entry rest ih =>
    rw [insertEntry]
    split
    · rw [Table.lookup_cons_ite]
    · split
      · rename_i heq
        rw [Table.lookup_cons_ite, Table.lookup_cons_ite, heq]
        by_cases h : other = entry.1 <;> simp [h]
      · rename_i hne
        rw [Table.lookup_cons_ite, Table.lookup_cons_ite, ih]
        by_cases h : other = entry.1
        · simp [h, Ne.symm hne]
        · simp [h]

def empty : Dictionary α := ⟨[], List.Pairwise.nil⟩

instance : Inhabited (Dictionary α) := ⟨empty⟩

def find? (d : Dictionary α) (name : String) : Option α := d.entries.lookup name

def insert (d : Dictionary α) (name : String) (value : α) : Dictionary α :=
  ⟨insertEntry name value d.entries, ascending_insertEntry d.ascending⟩

/-- The map of a list of entries; of two with one name the later counts. -/
def ofList (entries : List (String × α)) : Dictionary α :=
  entries.foldl (fun d e => d.insert e.1 e.2) empty

/-- The names in ascending order. -/
def names (d : Dictionary α) : List String := d.entries.map Prod.fst

def values (d : Dictionary α) : List α := d.entries.map Prod.snd

def size (d : Dictionary α) : Nat := d.entries.length

def isEmpty (d : Dictionary α) : Bool := d.entries.isEmpty

theorem insertEntry_of_lt {name : String} {entries : List (String × α)}
    (h : ∀ e ∈ entries, e.1 < name) (value : α) :
    insertEntry name value entries = entries ++ [(name, value)] := by
  induction entries with
  | nil => rfl
  | cons entry rest ih =>
    have hlt := h entry List.mem_cons_self
    have hne : name ≠ entry.1 := fun he => String.lt_irrefl entry.1 (he ▸ hlt)
    rw [insertEntry, if_neg (String.lt_asymm hlt), if_neg hne,
      ih fun e he => h e (List.mem_cons_of_mem entry he), List.cons_append]

theorem entries_foldl_insert {d : Dictionary α} {entries : List (String × α)}
    (h : (d.entries ++ entries).Pairwise fun a b => a.1 < b.1) :
    (entries.foldl (fun d e => d.insert e.1 e.2) d).entries = d.entries ++ entries := by
  induction entries generalizing d with
  | nil => exact (List.append_nil d.entries).symm
  | cons e entries ih =>
    have hlast : ∀ a ∈ d.entries, a.1 < e.1 := fun a ha =>
      (List.pairwise_append.mp h).2.2 a ha e List.mem_cons_self
    have hinsert : (d.insert e.1 e.2).entries = d.entries ++ [e] := insertEntry_of_lt hlast e.2
    have hnext := ih (d := d.insert e.1 e.2) (by simpa [hinsert] using h)
    rw [hinsert, List.append_assoc] at hnext
    exact hnext

/-- Entries that ascend are kept as they are. -/
theorem ofList_of_ascending {entries : List (String × α)}
    (h : entries.Pairwise fun a b => a.1 < b.1) : ofList entries = ⟨entries, h⟩ := by
  have hentries : (ofList entries).entries = entries := entries_foldl_insert h
  cases hd : ofList entries with
  | mk kept ascending =>
    rw [hd] at hentries
    subst hentries
    rfl

theorem mem_foldl_insert {d : Dictionary α} {entries : List (String × α)} {e : String × α}
    (h : e ∈ (entries.foldl (fun d e => d.insert e.1 e.2) d).entries) :
    e ∈ d.entries ∨ e ∈ entries := by
  induction entries generalizing d with
  | nil => exact Or.inl h
  | cons entry entries ih =>
    rcases ih h with hd | hrest
    · rcases mem_insertEntry hd with rfl | hd
      · exact Or.inr List.mem_cons_self
      · exact Or.inl hd
    · exact Or.inr (List.mem_cons_of_mem entry hrest)

/-- A map of a list has no entries beside those of the list. -/
theorem mem_ofList {entries : List (String × α)} {e : String × α}
    (h : e ∈ (ofList entries).entries) : e ∈ entries :=
  (mem_foldl_insert h).resolve_left List.not_mem_nil

theorem nodup_names (d : Dictionary α) : d.names.Nodup := by
  apply List.pairwise_map.mpr
  refine d.ascending.imp fun h heq => ?_
  exact String.lt_irrefl _ (heq ▸ h)

theorem find?_eq_some_iff (d : Dictionary α) (name : String) (value : α) :
    d.find? name = some value ↔ (name, value) ∈ d.entries :=
  Table.lookup_eq_some_iff d.nodup_names name value

@[simp] theorem find?_empty (name : String) : (empty : Dictionary α).find? name = none := rfl

@[simp] theorem find?_insert (d : Dictionary α) (name other : String) (value : α) :
    (d.insert name value).find? other = if other = name then some value else d.find? other :=
  lookup_insertEntry name other value d.entries

theorem find?_ofList_concat (entries : List (String × α)) (name other : String) (value : α) :
    (ofList (entries ++ [(name, value)])).find? other =
      if other = name then some value else (ofList entries).find? other := by
  rw [ofList, List.foldl_append]
  exact find?_insert _ name other value

end Dictionary
end ResultCache
