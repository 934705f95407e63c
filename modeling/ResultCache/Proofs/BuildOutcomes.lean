import Mathlib.Logic.Basic
import ResultCache.Registry

/-!
# How the building of a registry ends

No lifetime is checked before the first store is put up; one that is not supported ends the process.
-/

namespace ResultCache

namespace CacheSettings

def memory (settings : CacheSettings) : MemorySettings where
  maxCapacity := settings.maxCapacity.getD 10000
  defaultTtl := settings.defaultTtl
  timeToIdle := settings.timeToIdle

/-- One of the two lifetimes is longer than stores in memory support. -/
def Overlong (settings : CacheSettings) : Prop :=
  MemorySettings.longestLifetime < settings.defaultTtl ∨
    ∃ idle ∈ settings.timeToIdle, MemorySettings.longestLifetime < idle

theorem buildable_memory_iff (settings : CacheSettings) :
    settings.memory.buildable = true ↔ ¬ settings.Overlong := by
  rw [MemorySettings.buildable, Bool.and_eq_true, decide_eq_true_eq, Option.all_eq_true, Overlong,
    not_or, UInt64.not_lt]
  simp [memory]

instance (settings : CacheSettings) : Decidable settings.Overlong :=
  decidable_of_iff (¬ settings.memory.buildable = true)
    (not_congr settings.buildable_memory_iff |>.trans not_not)

end CacheSettings

theorem BackendType.parse_in_memory : parse "in_memory" = .ok .inMemory := by
  have hlower : Text.lower "in_memory" = "in_memory" := by decide
  rw [parse, hlower]
  rfl

namespace BackendConfig

/-- Named caches on consecutive places of a shelf. -/
def onPlaces (names : List String) (first : Nat) : List (NamedCache Handle) :=
  names.mapIdx fun i name => ⟨name, .shelf (first + i)⟩

theorem onPlaces_cons (name : String) (names : List String) (first : Nat) :
    onPlaces (name :: names) first = ⟨name, .shelf first⟩ :: onPlaces names (first + 1) := by
  simp only [onPlaces, List.mapIdx_cons, Nat.add_zero, Nat.add_assoc, Nat.add_comm 1]

variable {settings : MemorySettings}

theorem createMemory_of_buildable (h : settings.buildable = true) (names : List String)
    (shelf : Shelf) : createMemory settings names shelf =
      (.ok (onPlaces names shelf.length),
        shelf ++ List.replicate names.length (.memory (MemoryStore.new settings))) := by
  induction names generalizing shelf with
  | nil =>
    rw [List.length_nil, List.replicate_zero, List.append_nil]
    rfl
  | cons name names ih =>
    have hrest := ih (shelf ++ [.memory (MemoryStore.new settings)])
    rw [createMemory, if_pos h]
    simp only [Shelf.putUp, hrest]
    rw [onPlaces_cons, List.length_append, List.append_assoc, List.length_singleton,
      List.length_cons, List.replicate_succ]
    rfl

private theorem createMemory_of_not_buildable (h : ¬ settings.buildable = true)
    (names : List String) (shelf : Shelf) :
    createMemory settings names shelf =
      (if names = [] then .ok [] else .error .aborted, shelf) := by
  cases names with
  | nil => rfl
  | cons name names =>
    rw [createMemory, if_neg h, if_neg (List.cons_ne_nil name names)]

end BackendConfig

namespace Registry

open BackendConfig

variable {ν : Type} (network : Redis.Network ν) {settings : Settings}

theorem ofSettings_of_accepted (hnames : validate settings.namespaces = .ok ())
    (hbackend : BackendType.parse settings.cache.backend = .ok .inMemory) (host : Host ν) :
    ofSettings network settings host =
      let built := createMemory settings.cache.memory settings.namespaces host.shelf
      (built.1.map ofCaches, { host with shelf := built.2 }) := by
  have hconfig : BackendConfig.ofSettings settings.cache = .ok
      { type := .inMemory
        redisUrl := settings.cache.redisUrl
        keyPrefix := settings.cache.keyPrefix
        defaultTtl := settings.cache.defaultTtl
        maxCapacity := settings.cache.maxCapacity
        timeToIdle := settings.cache.timeToIdle } := by
    rw [BackendConfig.ofSettings, hbackend]
    rfl
  rw [ofSettings, hnames]
  simp only [hconfig]
  rfl

private theorem ofSettings_of_refused {fault : Error}
    (hnames : validate settings.namespaces = .error fault)
    (host : Host ν) : ofSettings network settings host = (.error (.error fault), host) := by
  rw [ofSettings, hnames]

/-- Building a registry in memory ends the process exactly if the namespaces are accepted, there is
one, and a lifetime is longer than stores in memory support. Otherwise it returns: the error of the
first namespace that is not accepted, or the registry of all namespaces on new places. Where there
is no registry, no store has been put up. -/
theorem ofSettings_ends (hbackend : BackendType.parse settings.cache.backend = .ok .inMemory)
    (host : Host ν) :
    ((ofSettings network settings host).1 = .error .aborted ↔
      validate settings.namespaces = .ok () ∧ settings.namespaces ≠ [] ∧
        settings.cache.Overlong) ∧
    (∀ fault, (ofSettings network settings host).1 = .error (.error fault) ↔
      validate settings.namespaces = .error fault) ∧
    (∀ registry, (ofSettings network settings host).1 = .ok registry ↔
      validate settings.namespaces = .ok () ∧
        (settings.namespaces = [] ∨ ¬ settings.cache.Overlong) ∧
        ofCaches (onPlaces settings.namespaces host.shelf.length) = registry) ∧
    ((∀ registry, (ofSettings network settings host).1 ≠ .ok registry) →
      (ofSettings network settings host).2 = host) := by
  cases hnames : validate settings.namespaces with
  | error fault =>
    rw [ofSettings_of_refused network hnames]
    simp
  | ok accepted =>
    rw [ofSettings_of_accepted network hnames hbackend]
    by_cases hlong : settings.cache.Overlong
    · have hbuildable : ¬ settings.cache.memory.buildable = true :=
        fun h => settings.cache.buildable_memory_iff.mp h hlong
      rw [createMemory_of_not_buildable hbuildable]
      by_cases hnone : settings.namespaces = []
      · simp [hnone, onPlaces, Except.map]
      · simp [hnone, hlong, Except.map]
    · rw [createMemory_of_buildable (settings.cache.buildable_memory_iff.mpr hlong)]
      simp [hlong, Except.map]

/-- The longest lifetime that is supported is built. -/
theorem ofSettings_of_longest_lifetime :
    let settings : Settings :=
      { cache := { defaultTtl := 31536000000, timeToIdle := some 31536000000 }
        namespaces := ["users", "orders"] }
    (ofSettings Redis.Network.silent settings ⟨[], ()⟩).1 =
      .ok (ofCaches [⟨"users", .shelf 0⟩, ⟨"orders", .shelf 1⟩]) := by
  intro settings
  have hbackend : BackendType.parse settings.cache.backend = .ok .inMemory :=
    BackendType.parse_in_memory
  have hends := ofSettings_ends Redis.Network.silent hbackend ⟨[], ()⟩
  have hlong : ¬ settings.cache.Overlong := by decide
  exact (hends.2.2.1 _).mpr ⟨rfl, .inr hlong, rfl⟩

/-- A lifetime that is one second longer ends the process. -/
theorem ofSettings_aborts_of_longer_lifetime :
    (ofSettings Redis.Network.silent
        { cache := { defaultTtl := 31536000001 }, namespaces := ["users"] } ⟨[], ()⟩).1 =
      .error .aborted := rfl

end Registry
end ResultCache
