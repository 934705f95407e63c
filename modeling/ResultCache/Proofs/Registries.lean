import Mathlib.Data.Finset.Card
import Mathlib.Data.List.Induction
import ResultCache.Proofs.Separators
import ResultCache.Proofs.TextBytes
import ResultCache.Registry

/-! # Registries of listed caches -/

namespace ResultCache.Registry

variable {σ : Type}

/-- A registry keeps the last cache that was listed under each id, once and in the order of the
ids. -/
structure Keeps (registry : Registry σ) (caches : List (NamedCache σ)) : Prop where
  found : ∀ name cache, registry.get? name = some cache ↔ ∃ before after,
    caches = before ++ cache :: after ∧ cache.id = name ∧ ∀ other ∈ after, other.id ≠ name
  absent : ∀ name, registry.get? name = none ↔ ∀ cache ∈ caches, cache.id ≠ name
  size : registry.size = (caches.map NamedCache.id).toFinset.card
  listed : ∀ cache, cache ∈ registry.toList ↔ registry.get? cache.id = some cache
  ascending : (registry.toList.map fun cache => Bytes.ofText cache.id).Pairwise (· < ·)

private theorem get?_ofCaches (caches : List (NamedCache σ)) (name : String) :
    (ofCaches caches).get? name = caches.findRev? fun cache => cache.id = name := by
  induction caches using List.reverseRecOn with
  | nil => rfl
  | append_singleton caches last ih =>
    rw [findRev?_concat, get?, ofCaches, List.map_append, List.map_singleton,
      Dictionary.find?_ofList_concat]
    change (if name = last.id then some last else (ofCaches caches).get? name) = _
    rw [ih]
    simp [eq_comm]

theorem get?_ofCaches_eq_some_iff {caches : List (NamedCache σ)} {name : String}
    {cache : NamedCache σ} : (ofCaches caches).get? name = some cache ↔ ∃ before after,
      caches = before ++ cache :: after ∧ cache.id = name ∧ ∀ other ∈ after, other.id ≠ name := by
  rw [get?_ofCaches, findRev?_eq_some_iff]
  simp only [decide_eq_true_eq, decide_eq_false_iff_not, ne_eq]

theorem get?_ofCaches_eq_none_iff {caches : List (NamedCache σ)} {name : String} :
    (ofCaches caches).get? name = none ↔ ∀ cache ∈ caches, cache.id ≠ name := by
  rw [get?_ofCaches, findRev?_eq_none_iff]
  simp only [decide_eq_false_iff_not, ne_eq]

theorem id_of_get? {caches : List (NamedCache σ)} {name : String} {cache : NamedCache σ}
    (h : (ofCaches caches).get? name = some cache) : cache.id = name := by
  obtain ⟨-, -, -, hid, -⟩ := get?_ofCaches_eq_some_iff.mp h
  exact hid

theorem ids_toList (caches : List (NamedCache σ)) :
    (ofCaches caches).toList.map NamedCache.id = (ofCaches caches).caches.names := by
  rw [toList, Dictionary.values, Dictionary.names, List.map_map]
  apply List.map_congr_left
  intro entry he
  exact id_of_get? (((ofCaches caches).caches.find?_eq_some_iff entry.1 entry.2).mpr he)

theorem mem_toList_iff {caches : List (NamedCache σ)} {cache : NamedCache σ} :
    cache ∈ (ofCaches caches).toList ↔ (ofCaches caches).get? cache.id = some cache := by
  rw [get?, Dictionary.find?_eq_some_iff, toList, Dictionary.values, List.mem_map]
  constructor
  · intro ⟨entry, he, hcache⟩
    have hid := id_of_get? (((ofCaches caches).caches.find?_eq_some_iff entry.1 entry.2).mpr he)
    rw [← hcache, hid]
    exact he
  · intro h
    exact ⟨(cache.id, cache), h, rfl⟩

theorem mem_toList_of_get? {caches : List (NamedCache σ)} {name : String} {cache : NamedCache σ}
    (h : (ofCaches caches).get? name = some cache) : cache ∈ (ofCaches caches).toList := by
  rw [mem_toList_iff, id_of_get? h, h]

theorem eq_of_id_eq {caches : List (NamedCache σ)} {name : String} {cache other : NamedCache σ}
    (h : (ofCaches caches).get? name = some cache) (hother : other ∈ (ofCaches caches).toList)
    (hid : other.id = name) : other = cache := by
  have hfound := mem_toList_iff.mp hother
  rw [hid, h] at hfound
  exact (Option.some.inj hfound).symm

theorem mem_ids_toList_iff {caches : List (NamedCache σ)} {name : String} :
    name ∈ (ofCaches caches).toList.map NamedCache.id ↔ ∃ cache ∈ caches, cache.id = name := by
  have hexists : (ofCaches caches).get? name ≠ none ↔ ∃ cache ∈ caches, cache.id = name := by
    rw [Ne, get?_ofCaches_eq_none_iff]
    simp
  rw [← hexists, List.mem_map]
  constructor
  · intro ⟨cache, hcache, hid⟩ hnone
    rw [mem_toList_iff, hid, hnone] at hcache
    cases hcache
  · intro hsome
    obtain ⟨cache, hcache⟩ := Option.ne_none_iff_exists'.mp hsome
    exact ⟨cache, mem_toList_of_get? hcache, id_of_get? hcache⟩

theorem ids_ascending (caches : List (NamedCache σ)) :
    ((ofCaches caches).toList.map NamedCache.id).Pairwise (· < ·) := by
  rw [ids_toList]
  exact List.pairwise_map.mpr (ofCaches caches).caches.ascending

theorem size_ofCaches (caches : List (NamedCache σ)) :
    (ofCaches caches).size = (caches.map NamedCache.id).toFinset.card := by
  have hlength : (ofCaches caches).size = ((ofCaches caches).toList.map NamedCache.id).length := by
    rw [ids_toList]
    exact (List.length_map Prod.fst).symm
  have hnodup : ((ofCaches caches).toList.map NamedCache.id).Nodup := by
    rw [ids_toList]
    exact (ofCaches caches).caches.nodup_names
  have hsame : ((ofCaches caches).toList.map NamedCache.id).toFinset =
      (caches.map NamedCache.id).toFinset := by
    ext name
    rw [List.mem_toFinset, List.mem_toFinset, mem_ids_toList_iff, List.mem_map]
  rw [hlength, ← List.toFinset_card_of_nodup hnodup, hsame]

theorem keeps_ofCaches (caches : List (NamedCache σ)) : (ofCaches caches).Keeps caches where
  found _ _ := get?_ofCaches_eq_some_iff
  absent _ := get?_ofCaches_eq_none_iff
  size := size_ofCaches caches
  listed _ := mem_toList_iff
  ascending := by
    have hids := ids_ascending caches
    rw [List.pairwise_map] at hids ⊢
    exact hids.imp Bytes.ofText_lt_iff.mpr

section Require

variable {ω α : Type} {registry : Registry σ} {name : String} {cache : NamedCache σ}

theorem runOn_require_of_unknown (h : registry.get? name = none)
    (next : NamedCache σ → Action ω α) (world : ω) :
    (Action.ofResult (registry.require name) >>= next).runOn world =
      (.error (.configuration (.unknownNamespace name)), world) := by
  rw [Action.runOn_bind, require, h]
  rfl

theorem runOn_require_of_known (h : registry.get? name = some cache)
    (next : NamedCache σ → Action ω α) (world : ω) :
    (Action.ofResult (registry.require name) >>= next).runOn world = (next cache).runOn world := by
  rw [Action.runOn_bind, require, h]
  rfl

end Require

end ResultCache.Registry
