import ResultCache.Proofs.Binding
import ResultCache.Proofs.Dependence
import ResultCache.Proofs.Maps
import ResultCache.Proofs.Registries

/-! # Flushes and reports of sizes -/

namespace ResultCache

private theorem Action.runOn_bind_of_ok {ω α β : Type} {action : Action ω α} {world after : ω}
    {x : α} (h : action.runOn world = (.ok x, after)) (next : α → Action ω β) :
    (action >>= next).runOn world = (next x).runOn after := by
  rw [runOn_bind, h]

namespace MapStore

def refusal? (store : MapStore) (kind : CallKind) : Option String :=
  (store.failures.find? kind).or store.failure

def noting (store : MapStore) (kind : CallKind) : MapStore :=
  { store with calls := store.calls ++ [⟨kind, ""⟩] }

/-- The store after it was measured and emptied. -/
def emptied (store : MapStore) : MapStore :=
  { (store.noting .size).noting .clear with entries := Table.empty }

variable {store : MapStore} {kind : CallKind} {words : String}

private theorem call_of_refused {α : Type} (h : store.refusal? kind = some words)
    (effect : Table String String → α × Table String String) :
    store.call kind "" effect = (.error (.cache (.reported words)), store.noting kind) := by
  rw [refusal?] at h
  simp only [call, h, noting]

private theorem call_of_accepted {α : Type} (h : store.refusal? kind = none)
    (effect : Table String String → α × Table String String) :
    store.call kind "" effect = (.ok (effect store.entries).1,
      { store.noting kind with entries := (effect store.entries).2 }) := by
  rw [refusal?] at h
  simp only [call, h, noting]

private theorem size_of_refused (h : store.refusal? .size = some words) :
    store.size = (.error (.cache (.reported words)), store.noting .size) :=
  call_of_refused h _

private theorem size_of_accepted (h : store.refusal? .size = none) :
    store.size = (.ok store.entries.size, store.noting .size) :=
  call_of_accepted h _

private theorem clear_of_refused (h : store.refusal? .clear = some words) :
    store.clear = (.error (.cache (.reported words)), store.noting .clear) :=
  call_of_refused h _

private theorem clear_of_accepted (h : store.refusal? .clear = none) :
    store.clear = (.ok (), { store.noting .clear with entries := Table.empty }) :=
  call_of_accepted h _

/-- Measures the store and then empties it, unless it could not be measured. -/
def flush (store : MapStore) : Except Error Nat × MapStore :=
  match store.size with
  | (.error e, store) => (.error e, store)
  | (.ok entries, store) =>
    match store.clear with
    | (result, store) => (result.map fun _ => entries, store)

private theorem flush_of_unmeasured (h : store.refusal? .size = some words) :
    store.flush = (.error (.cache (.reported words)), store.noting .size) := by
  rw [flush, size_of_refused h]

private theorem flush_of_unemptied (hsize : store.refusal? .size = none)
    (hclear : store.refusal? .clear = some words) :
    store.flush =
      (.error (.cache (.reported words)), (store.noting .size).noting .clear) := by
  have hnoted : (store.noting .size).refusal? .clear = some words := hclear
  rw [flush, size_of_accepted hsize]
  dsimp only
  rw [clear_of_refused hnoted]
  rfl

theorem flush_of_accepted (hsize : store.refusal? .size = none)
    (hclear : store.refusal? .clear = none) :
    store.flush = (.ok store.entries.size, store.emptied) := by
  have hnoted : (store.noting .size).refusal? .clear = none := hclear
  rw [flush, size_of_accepted hsize]
  dsimp only
  rw [clear_of_accepted hnoted]
  rfl

/-- What a flush of a store comes to. It is measured first, and emptied only then. -/
structure Flushed (store : MapStore) (outcome : Except Error Nat × MapStore) : Prop where
  succeeds : (∃ entries, outcome.1 = .ok entries) ↔
    store.refusal? .size = none ∧ store.refusal? .clear = none
  counted : ∀ entries, outcome.1 = .ok entries →
    entries = store.entries.size ∧ outcome.2 = store.emptied
  kept : ∀ e, outcome.1 = .error e → outcome.2.entries = store.entries ∧
    ((store.refusal? .size).or (store.refusal? .clear)).map
      (fun words => .cache (.reported words)) = some e
  unmeasured : store.refusal? .size ≠ none → outcome.2 = store.noting .size

private theorem flushed_flush (store : MapStore) : store.Flushed store.flush := by
  cases hsize : store.refusal? .size with
  | some words =>
    rw [flush_of_unmeasured hsize]
    refine ⟨by simp [hsize], nofun, ?_, fun _ => rfl⟩
    intro e he
    cases he
    exact ⟨rfl, by simp [hsize]⟩
  | none =>
    have hmeasured : ¬ store.refusal? .size ≠ none := not_not_intro hsize
    cases hclear : store.refusal? .clear with
    | some words =>
      rw [flush_of_unemptied hsize hclear]
      refine ⟨by simp [hclear], nofun, ?_, fun h => absurd h hmeasured⟩
      intro e he
      cases he
      exact ⟨rfl, by simp [hsize, hclear]⟩
    | none =>
      rw [flush_of_accepted hsize hclear]
      refine ⟨by simp [hsize, hclear], ?_, nofun, fun h => absurd h hmeasured⟩
      intro entries hentries
      exact ⟨(Except.ok.inj hentries).symm, rfl⟩

end MapStore

namespace Shelf

variable {shelf : Shelf} {place : Nat} {store : MapStore}

private theorem runOn_size_map (h : shelf[place]? = some (.map store)) :
    (Shelf.stores.size place).runOn shelf =
      (store.size.1, shelf.set place (.map store.size.2)) := by
  simp only [Shelf.stores, operateAt, Action.runOn_ofFunction, h, ShelfStore.operate]

private theorem runOn_clear_map (h : shelf[place]? = some (.map store)) :
    (Shelf.stores.clear place).runOn shelf =
      (store.clear.1, shelf.set place (.map store.clear.2)) := by
  simp only [Shelf.stores, operateAt, Action.runOn_ofFunction, h, ShelfStore.operate]

private theorem dependsOn_size (place : Nat) : (Shelf.stores.size place).DependsOn unlogged :=
  dependsOn_operateAt (ShelfStore.overlooks_operate .size "" _ _) place

private theorem unlogged_size (place : Nat) (shelf : Shelf) :
    ((Shelf.stores.size place).runOn shelf).2.unlogged = shelf.unlogged :=
  unlogged_operateAt (ShelfStore.unlogged_operate .size "" Table.size MemoryStore.size) place shelf

end Shelf

namespace Registry

/-! ## One namespace -/

section Flush

variable {registry : Registry Nat} {name : String} {cache : NamedCache Nat} {shelf : Shelf}
  {store : MapStore}

theorem runOn_flush_of_unknown (h : registry.get? name = none) (shelf : Shelf) :
    (registry.flush Shelf.stores name).runOn shelf =
      (.error (.configuration (.unknownNamespace name)), shelf) :=
  runOn_require_of_unknown h _ shelf

theorem runOn_flush_of_known (h : registry.get? name = some cache)
    (hstands : shelf[cache.store]? = some (.map store)) :
    (registry.flush Shelf.stores name).runOn shelf =
      (store.flush.1, shelf.set cache.store (.map store.flush.2)) := by
  rw [flush, runOn_require_of_known h, Action.runOn_bind, Shelf.runOn_size_map hstands,
    MapStore.flush]
  rcases store.size with ⟨e | entries, measured⟩
  · rfl
  · have hmeasured : (shelf.set cache.store (.map measured))[cache.store]? =
        some (.map measured) := by
      obtain ⟨hlt, -⟩ := List.getElem?_eq_some_iff.mp hstands
      exact List.getElem?_set_self hlt
    dsimp only
    rw [Action.runOn_bind, Shelf.runOn_clear_map hmeasured, List.set_set]
    rcases measured.clear with ⟨e | _, emptied⟩ <;> rfl

private theorem dependsOn_flush (registry : Registry Nat) (name : String) :
    (registry.flush Shelf.stores name).DependsOn Shelf.unlogged := by
  rw [flush]
  apply (Action.dependsOn_ofResult (registry.require name)).bind
  intro cache
  apply (Shelf.dependsOn_size cache.store).bind
  intro entries
  apply (Shelf.stores_dependOn.clear cache.store).bind
  intro _
  exact Action.dependsOn_pure entries

end Flush

/-! ## All namespaces -/

section Sizes

/-- The sizes of listed caches, one after the other. -/
def sizesOf (caches : List (NamedCache Nat)) : Action Shelf (List (String × Nat)) :=
  caches.mapM fun cache => do pure (cache.id, ← Shelf.stores.size cache.store)

private theorem sizesOf_cons (cache : NamedCache Nat) (rest : List (NamedCache Nat)) :
    sizesOf (cache :: rest) = Shelf.stores.size cache.store >>= fun entries =>
      (fun rows => (cache.id, entries) :: rows) <$> sizesOf rest := by
  simp only [sizesOf, List.mapM_cons, bind_assoc, pure_bind, map_eq_pure_bind]

def sizeOn (shelf : Shelf) (cache : NamedCache Nat) : Except Error (String × Nat) :=
  ((Shelf.stores.size cache.store).runOn shelf).1.map fun entries => (cache.id, entries)

private theorem sizeOn_eq_of_unlogged {shelf other : Shelf} (h : shelf.unlogged = other.unlogged) :
    sizeOn shelf = sizeOn other := by
  funext cache
  obtain ⟨hsize, -⟩ := Shelf.dependsOn_size cache.store shelf other h
  exact congrArg (Except.map fun entries => (cache.id, entries)) hsize

private theorem runOn_sizesOf (caches : List (NamedCache Nat)) (shelf : Shelf) :
    ((sizesOf caches).runOn shelf).1 = caches.mapM (sizeOn shelf) ∧
      ((sizesOf caches).runOn shelf).2.unlogged = shelf.unlogged := by
  induction caches generalizing shelf with
  | nil => exact ⟨rfl, rfl⟩
  | cons cache rest ih =>
    have hmeasured := Shelf.unlogged_size cache.store shelf
    rw [sizesOf_cons, Action.runOn_bind, List.mapM_cons, sizeOn]
    revert hmeasured
    rcases (Shelf.stores.size cache.store).runOn shelf with ⟨e | entries, measured⟩
    · intro hmeasured
      exact ⟨rfl, hmeasured⟩
    · intro hmeasured
      obtain ⟨hrest, hafter⟩ := ih measured
      dsimp only
      rw [Action.runOn_map, hrest, sizeOn_eq_of_unlogged hmeasured]
      refine ⟨?_, hafter.trans hmeasured⟩
      cases rest.mapM (sizeOn shelf) <;> rfl

variable {cache : NamedCache Nat} {shelf : Shelf} {store : MapStore}

private theorem sizeOn_of_accepted (hstands : shelf[cache.store]? = some (.map store))
    (h : store.refusal? .size = none) :
    sizeOn shelf cache = .ok (cache.id, store.entries.size) := by
  rw [sizeOn, Shelf.runOn_size_map hstands, MapStore.size_of_accepted h]
  rfl

private theorem sizeOn_of_refused {words : String}
    (hstands : shelf[cache.store]? = some (.map store)) (h : store.refusal? .size = some words) :
    sizeOn shelf cache = .error (.cache (.reported words)) := by
  rw [sizeOn, Shelf.runOn_size_map hstands, MapStore.size_of_refused h]
  rfl

private theorem sizeOn_eq_error_iff {e : Error}
    (hstands : shelf[cache.store]? = some (.map store)) :
    sizeOn shelf cache = .error e ↔
      ∃ words, store.refusal? .size = some words ∧ e = .cache (.reported words) := by
  cases hsize : store.refusal? .size with
  | none => simp [sizeOn_of_accepted hstands hsize]
  | some words => simp [sizeOn_of_refused hstands hsize, eq_comm]

private theorem exists_sizeOn_iff (hstands : shelf[cache.store]? = some (.map store)) :
    (∃ row, sizeOn shelf cache = .ok row) ↔ store.refusal? .size = none := by
  cases hsize : store.refusal? .size with
  | none => simp [sizeOn_of_accepted hstands hsize]
  | some words => simp [sizeOn_of_refused hstands hsize]

end Sizes

/-! ## Registries over maps -/

/-- The caches of a registry stand on maps of a shelf, each on one of its own. -/
structure StandsOn (registry : Registry Nat) (shelf : Shelf) (maps : Nat → MapStore) : Prop where
  stands : ∀ cache ∈ registry.toList, shelf[cache.store]? = some (.map (maps cache.store))
  apart : (registry.toList.map NamedCache.store).Nodup

/-- How many entries each map keeps, in the order of the namespaces. -/
def counts (registry : Registry Nat) (maps : Nat → MapStore) : List (String × Nat) :=
  registry.toList.map fun cache => (cache.id, (maps cache.store).entries.size)

/-- A flush between two reports of sizes. -/
def flushBetween {σ ω : Type} (stores : Stores σ ω) (registry : Registry σ) (name : String) :
    Action ω (List (String × Nat) × Nat × List (String × Nat)) := do
  let before ← registry.sizes stores
  let removed ← registry.flush stores name
  let after ← registry.sizes stores
  pure (before, removed, after)

section Reports

variable {registry : Registry Nat} {name : String} {cache : NamedCache Nat} {shelf after : Shelf}
  {maps : Nat → MapStore}

private theorem answer_sizes (registry : Registry Nat) (shelf : Shelf) :
    ((registry.sizes Shelf.stores).runOn shelf).1 = registry.toList.mapM (sizeOn shelf) :=
  (runOn_sizesOf registry.toList shelf).1

private theorem unlogged_sizes (registry : Registry Nat) (shelf : Shelf) :
    ((registry.sizes Shelf.stores).runOn shelf).2.unlogged = shelf.unlogged :=
  (runOn_sizesOf registry.toList shelf).2

/-- The first map that refuses to be measured is the one that is reported. -/
theorem sizes_eq_error_iff (h : registry.StandsOn shelf maps) {e : Error} :
    ((registry.sizes Shelf.stores).runOn shelf).1 = .error e ↔ ∃ before cache after words,
      registry.toList = before ++ cache :: after ∧
        (∀ other ∈ before, (maps other.store).refusal? .size = none) ∧
        (maps cache.store).refusal? .size = some words ∧ e = .cache (.reported words) := by
  rw [answer_sizes, mapM_eq_error_iff]
  constructor
  · intro ⟨before, cache, after, hlist, hrefused, hbefore⟩
    have hstands {other : NamedCache Nat} (hother : other ∈ before ++ cache :: after) :=
      h.stands other (hlist ▸ hother)
    obtain ⟨words, hwords, he⟩ := (sizeOn_eq_error_iff (hstands (by simp))).mp hrefused
    refine ⟨before, cache, after, words, hlist, ?_, hwords, he⟩
    intro other hother
    exact (exists_sizeOn_iff (hstands (by simp [hother]))).mp (hbefore other hother)
  · intro ⟨before, cache, after, words, hlist, hbefore, hwords, he⟩
    have hstands {other : NamedCache Nat} (hother : other ∈ before ++ cache :: after) :=
      h.stands other (hlist ▸ hother)
    refine ⟨before, cache, after, hlist, ?_, ?_⟩
    · exact (sizeOn_eq_error_iff (hstands (by simp))).mpr ⟨words, hwords, he⟩
    · intro other hother
      exact (exists_sizeOn_iff (hstands (by simp [hother]))).mpr (hbefore other hother)

theorem sizes_of_accepted (h : registry.StandsOn shelf maps)
    (haccepted : ∀ cache ∈ registry.toList, (maps cache.store).refusal? .size = none) :
    ((registry.sizes Shelf.stores).runOn shelf).1 = .ok (registry.counts maps) := by
  rw [answer_sizes, mapM_eq_ok_iff, counts, List.forall₂_map_right_iff, List.forall₂_same]
  intro cache hcache
  exact sizeOn_of_accepted (h.stands cache hcache) (haccepted cache hcache)

theorem StandsOn.set (h : registry.StandsOn shelf maps) (hcache : cache ∈ registry.toList)
    (changed : MapStore) :
    registry.StandsOn (shelf.set cache.store (.map changed))
      (Function.update maps cache.store changed) where
  stands other hother := by
    by_cases hplace : other.store = cache.store
    · obtain ⟨hlt, -⟩ := List.getElem?_eq_some_iff.mp (h.stands cache hcache)
      rw [hplace, Function.update_self, List.getElem?_set_self hlt]
    · rw [Function.update_of_ne hplace, List.getElem?_set_ne (Ne.symm hplace),
        h.stands other hother]
  apart := h.apart

private theorem answer_flushBetween {before rows : List (String × Nat)} {removed : Nat}
    (hbefore : ((registry.sizes Shelf.stores).runOn shelf).1 = .ok before)
    (hflush : (registry.flush Shelf.stores name).runOn shelf = (.ok removed, after))
    (hrows : ((registry.sizes Shelf.stores).runOn after).1 = .ok rows) :
    ((registry.flushBetween Shelf.stores name).runOn shelf).1 = .ok (before, removed, rows) := by
  have hmeasured := unlogged_sizes registry shelf
  obtain ⟨hremoved, hflushed⟩ := dependsOn_flush registry name _ shelf hmeasured
  rw [hflush] at hremoved hflushed
  dsimp only at hremoved
  rw [flushBetween, Action.runOn_bind_of_ok (Prod.ext hbefore rfl),
    Action.runOn_bind_of_ok (Prod.ext hremoved rfl), bind_pure_comp, Action.runOn_map,
    answer_sizes, sizeOn_eq_of_unlogged hflushed, ← answer_sizes, hrows]
  rfl

variable {caches : List (NamedCache Nat)}

private theorem StandsOn.store_ne (h : (ofCaches caches).StandsOn shelf maps)
    (hcache : (ofCaches caches).get? name = some cache) {other : NamedCache Nat}
    (hother : other ∈ (ofCaches caches).toList) (hid : other.id ≠ name) :
    other.store ≠ cache.store := by
  intro hplace
  rw [List.inj_on_of_nodup_map h.apart hother (mem_toList_of_get? hcache) hplace] at hid
  exact hid (id_of_get? hcache)

private theorem counts_update (h : (ofCaches caches).StandsOn shelf maps)
    (hcache : (ofCaches caches).get? name = some cache) {emptied : MapStore}
    (hemptied : emptied.entries = Table.empty) :
    (ofCaches caches).counts (Function.update maps cache.store emptied) =
      ((ofCaches caches).counts maps).map fun row => if row.1 = name then (name, 0) else row := by
  rw [counts, counts, List.map_map]
  apply List.map_congr_left
  intro other hother
  rw [Function.comp_apply]
  by_cases hid : other.id = name
  · rw [if_pos hid, eq_of_id_eq hcache hother hid, Function.update_self, hemptied,
      id_of_get? hcache]
    rfl
  · rw [if_neg hid, Function.update_of_ne (h.store_ne hcache hother hid)]

theorem flushBetween_of_healthy (h : (ofCaches caches).StandsOn shelf maps)
    (hcache : (ofCaches caches).get? name = some cache)
    (healthy : ∀ other ∈ (ofCaches caches).toList, (maps other.store).Healthy) :
    (((ofCaches caches).flushBetween Shelf.stores name).runOn shelf).1 =
      .ok ((ofCaches caches).counts maps, (maps cache.store).entries.size,
        ((ofCaches caches).counts maps).map fun row =>
          if row.1 = name then (name, 0) else row) := by
  have hmem := mem_toList_of_get? hcache
  have hflush := runOn_flush_of_known hcache (h.stands cache hmem)
  rw [MapStore.flush_of_accepted (healthy cache hmem .size) (healthy cache hmem .clear)] at hflush
  have hempty : (maps cache.store).emptied.entries = Table.empty := rfl
  rw [← counts_update h hcache hempty]
  apply answer_flushBetween (sizes_of_accepted h _) hflush (sizes_of_accepted (h.set hmem _) _)
  · exact fun other hother => healthy other hother .size
  · intro other hother
    by_cases hplace : other.store = cache.store
    · rw [hplace, Function.update_self]
      exact healthy cache hmem .size
    · rw [Function.update_of_ne hplace]
      exact healthy other hother .size

example :
    let users : MapStore := .new ((Table.empty.set "a" "1").set "b" "2")
    let orders : MapStore := .new (Table.empty.set "a" "3")
    (((ofCaches [⟨"users", 0⟩, ⟨"orders", 1⟩]).flushBetween Shelf.stores "users").runOn
        [.map users, .map orders]).1 =
      .ok ([("orders", 1), ("users", 2)], 2, [("orders", 1), ("users", 0)]) := rfl

end Reports

/-- Over pairwise different maps that may refuse calls of any kind, a flush of an unknown namespace
calls no store. A flush of a known one measures its map and then empties it, unless it could not be
measured, and answers how many entries the map kept. Reports of sizes before and after differ in the
count of this namespace; where some maps refuse to be measured, a report is the error of the first.
-/
theorem flush_empties_one (caches : List (NamedCache Nat)) (shelf : Shelf) (maps : Nat → MapStore)
    (h : (ofCaches caches).StandsOn shelf maps) :
    let registry := ofCaches caches
    (∀ name, (∀ cache ∈ caches, cache.id ≠ name) →
      (registry.flush Shelf.stores name).runOn shelf =
        (.error (.configuration (.unknownNamespace name)), shelf)) ∧
    (∀ name cache, registry.get? name = some cache →
      (∃ result flushed, (maps cache.store).Flushed (result, flushed) ∧
        (registry.flush Shelf.stores name).runOn shelf =
          (result, shelf.set cache.store (.map flushed)) ∧
        ∀ other ∈ registry.toList, other.id ≠ name →
          (shelf.set cache.store (.map flushed))[other.store]? =
            some (.map (maps other.store))) ∧
      ((∀ other ∈ registry.toList, (maps other.store).Healthy) →
        ((registry.flushBetween Shelf.stores name).runOn shelf).1 =
          .ok (registry.counts maps, (maps cache.store).entries.size,
            (registry.counts maps).map fun row => if row.1 = name then (name, 0) else row))) ∧
    ((registry.counts maps).map fun row => Bytes.ofText row.1).Pairwise (· < ·) ∧
    (∀ name, name ∈ (registry.counts maps).map Prod.fst ↔ ∃ cache ∈ caches, cache.id = name) ∧
    ∀ e, ((registry.sizes Shelf.stores).runOn shelf).1 = .error e ↔ ∃ before cache after words,
      registry.toList = before ++ cache :: after ∧
        (∀ other ∈ before, (maps other.store).refusal? .size = none) ∧
        (maps cache.store).refusal? .size = some words ∧ e = .cache (.reported words) := by
  intro registry
  refine ⟨?_, ?_, ?_, ?_, fun e => sizes_eq_error_iff h⟩
  · intro name hunknown
    exact runOn_flush_of_unknown (get?_ofCaches_eq_none_iff.mpr hunknown) shelf
  · intro name cache hcache
    have hmem := mem_toList_of_get? hcache
    refine ⟨⟨_, _, (maps cache.store).flushed_flush,
      runOn_flush_of_known hcache (h.stands cache hmem), ?_⟩, flushBetween_of_healthy h hcache⟩
    intro other hother hid
    have hplace := h.store_ne hcache hother hid
    rw [List.getElem?_set_ne hplace.symm, h.stands other hother]
  · rw [counts, List.map_map]
    exact (keeps_ofCaches caches).ascending
  · intro name
    rw [counts, List.map_map]
    exact mem_ids_toList_iff

/-- One of two namespaces cannot be measured. The other is flushed all the same, and the report of
sizes fails. -/
theorem flush_empties_one_of_two_maps :
    let users : MapStore := .new (Table.empty.set "a" "1")
    let orders : MapStore :=
      { MapStore.new (Table.empty.set "b" "2") with failures := Table.empty.set .size "down" }
    let registry := ofCaches [⟨"users", 0⟩, ⟨"orders", 1⟩]
    let shelf : Shelf := [.map users, .map orders]
    (registry.flush Shelf.stores "users").runOn shelf =
        (.ok 1, [.map users.emptied, .map orders]) ∧
      (registry.flush Shelf.stores "orders").runOn shelf =
        (.error (.cache (.reported "down")), [.map users, .map (orders.noting .size)]) ∧
      ((registry.sizes Shelf.stores).runOn shelf).1 = .error (.cache (.reported "down")) := by
  intro users orders registry shelf
  have hlist : registry.toList = [⟨"orders", 1⟩, ⟨"users", 0⟩] := rfl
  have hstands : registry.StandsOn shelf fun place => if place = 0 then users else orders := by
    refine ⟨?_, ?_⟩
    · rw [hlist]
      simp [shelf]
    · rw [hlist]
      decide
  obtain ⟨-, hknown, -, -, hsizes⟩ := flush_empties_one _ shelf _ hstands
  refine ⟨?_, ?_, ?_⟩
  · obtain ⟨⟨result, flushed, hflushed, hrun, -⟩, -⟩ := hknown "users" ⟨"users", 0⟩ rfl
    obtain ⟨entries, rfl⟩ := hflushed.succeeds.mpr ⟨rfl, rfl⟩
    obtain ⟨hentries, hemptied⟩ := hflushed.counted entries rfl
    cases hemptied
    rw [hrun, hentries]
    rfl
  · obtain ⟨⟨result, flushed, hflushed, hrun, -⟩, -⟩ := hknown "orders" ⟨"orders", 1⟩ rfl
    have hrefused : orders.refusal? .size = some "down" := rfl
    cases hflushed.unmeasured (hrefused ▸ nofun)
    cases result with
    | ok entries => exact nomatch (hflushed.succeeds.mp ⟨entries, rfl⟩).1
    | error e =>
      cases (hflushed.kept e rfl).2
      exact hrun
  · exact (hsizes _).mpr ⟨[], ⟨"orders", 1⟩, [⟨"users", 0⟩], "down", hlist, nofun, rfl, rfl⟩

end Registry
end ResultCache
