import ResultCache.Proofs.BuildOutcomes
import ResultCache.Proofs.Namespaces
import ResultCache.Proofs.Registries
import ResultCache.Proofs.StoreRequests

/-! # Requests by namespace -/

namespace ResultCache

variable {σ ω ν : Type}

namespace Registry

/-- Carries out a request on the cache of a namespace, which must be registered. -/
def perform (stores : Stores σ ω) (registry : Registry σ) (name : String)
    (request : StoreRequest) : Action ω StoreAnswer := do
  let cache ← Action.ofResult (registry.require name)
  request.perform stores cache.store

/-- Carries out requests one after the other, also after one has failed. -/
def performAll (stores : Stores σ ω) (registry : Registry σ) :
    List (String × StoreRequest) → ω → List (Except Error StoreAnswer) × ω
  | [], world => ([], world)
  | (name, request) :: rest, world =>
    match (registry.perform stores name request).runOn world with
    | (answer, world) =>
      match performAll stores registry rest world with
      | (answers, world) => (answer :: answers, world)

variable {registry : Registry σ} {name : String}

theorem runOn_perform_of_unknown (h : registry.get? name = none) (stores : Stores σ ω)
    (request : StoreRequest) (world : ω) :
    (registry.perform stores name request).runOn world =
      (.error (.configuration (.unknownNamespace name)), world) :=
  runOn_require_of_unknown h _ world

theorem runOn_perform_of_known {cache : NamedCache σ} (h : registry.get? name = some cache)
    (stores : Stores σ ω) (request : StoreRequest) (world : ω) :
    (registry.perform stores name request).runOn world =
      (request.perform stores cache.store).runOn world :=
  runOn_require_of_known h _ world

end Registry

namespace StoreRequest

/-- What a map of a capacity keeps. Without capacity it keeps nothing. -/
def kept (capacity : UInt64) (table : Table String String) : Table String String :=
  if capacity = 0 then Table.empty else table

/-- What separate maps of a capacity, one for each of some names, answer to requests by name, and
what they keep afterwards. A request by another name fails and changes none of them. -/
def onNamedTables (names : List String) (capacity : UInt64) :
    List (String × StoreRequest) → (String → Table String String) →
      List (Except Error StoreAnswer) × (String → Table String String)
  | [], tables => ([], tables)
  | (name, request) :: rest, tables =>
    if name ∈ names then
      match request.onTable (tables name) with
      | (answer, table) =>
        match onNamedTables names capacity rest
            (Function.update tables name (kept capacity table)) with
        | (answers, tables) => (.ok answer :: answers, tables)
    else
      match onNamedTables names capacity rest tables with
      | (answers, tables) =>
        (.error (.configuration (.unknownNamespace name)) :: answers, tables)

private theorem kept_kept (capacity : UInt64) (table : Table String String) :
    kept capacity (kept capacity table) = kept capacity table := by
  by_cases h : capacity = 0 <;> simp [kept, h]

private theorem kept_empty (capacity : UInt64) : kept capacity Table.empty = Table.empty := by
  by_cases h : capacity = 0 <;> simp [kept, h]

end StoreRequest

namespace MemoryStore

open StoreRequest

def serve (request : StoreRequest) (store : MemoryStore) : StoreAnswer × MemoryStore :=
  match request with
  | .get name => (.text (store.get name), store)
  | .put name text => (.done, store.put name text)
  | .remove name => (.flag (store.get name).isSome, store.remove name)
  | .contains name => (.flag (store.get name).isSome, store)
  | .clear => (.done, store.clear)
  | .size => (.count store.size, store)

private theorem serve_eq (request : StoreRequest) {settings : MemorySettings}
    {table : Table String String} (h : kept settings.maxCapacity table = table) :
    serve request ⟨settings, table⟩ = ((request.onTable table).1,
      ⟨settings, kept settings.maxCapacity (request.onTable table).2⟩) := by
  cases request with
  | get name =>
    rw [onTable, h]
    rfl
  | put name text =>
    rw [serve, onTable, put]
    by_cases hcapacity : settings.maxCapacity = 0
    · rw [if_pos hcapacity, ← h]
      simp [kept, hcapacity]
    · simp [kept, hcapacity]
  | remove name =>
    have hflag : (MemoryStore.get ⟨settings, table⟩ name).isSome = table.contains name := rfl
    by_cases hcapacity : settings.maxCapacity = 0
    · have hempty : table = Table.empty := by simpa [kept, hcapacity] using h.symm
      rw [serve, onTable, hflag, kept, if_pos hcapacity, hempty]
      rfl
    · rw [serve, onTable, hflag, kept, if_neg hcapacity]
      rfl
  | contains name =>
    rw [onTable, h]
    rfl
  | clear =>
    rw [onTable, kept_empty]
    rfl
  | size =>
    rw [onTable, h]
    rfl

private theorem runOn_perform_shelf {place : Nat} {shelf : Shelf} {store : MemoryStore}
    (h : shelf[place]? = some (.memory store)) (request : StoreRequest) :
    (request.perform Shelf.stores place).runOn shelf =
      (.ok (serve request store).1, shelf.set place (.memory (serve request store).2)) := by
  cases request <;> rw [perform, Action.runOn_map] <;>
    simp only [Shelf.stores, Shelf.operateAt, Action.runOn_ofFunction, h] <;> rfl

private theorem runOn_perform_host (server : Redis.Server ν) (place : Nat) (request : StoreRequest)
    (host : Host ν) :
    (request.perform (Host.stores server) (.shelf place)).runOn host =
      (((request.perform Shelf.stores place).runOn host.shelf).1,
        { host with shelf := ((request.perform Shelf.stores place).runOn host.shelf).2 }) := by
  cases request <;> rw [perform, perform, Action.runOn_map, Action.runOn_map] <;> rfl

end MemoryStore

namespace Registry

open BackendConfig StoreRequest

/-- The shelf on which a store in memory stands for every name, behind some others. -/
def shelved (old : Shelf) (settings : MemorySettings) (names : List String)
    (tables : String → Table String String) : Shelf :=
  old ++ names.map fun name => .memory ⟨settings, tables name⟩

variable {old : Shelf} {settings : MemorySettings} {names before after : List String}
  {tables : String → Table String String} {name : String}

private theorem ids_onPlaces (names : List String) (first : Nat) :
    (onPlaces names first).map NamedCache.id = names := by
  induction names generalizing first with
  | nil => rfl
  | cons name names ih => rw [onPlaces_cons, List.map_cons, ih]

private theorem onPlaces_append (before after : List String) (name : String) (first : Nat) :
    onPlaces (before ++ name :: after) first = onPlaces before first ++
      ⟨name, .shelf (first + before.length)⟩ ::
        onPlaces after (first + before.length + 1) := by
  induction before generalizing first with
  | nil => rw [List.nil_append, onPlaces_cons]; rfl
  | cons other before ih =>
    rw [List.cons_append, onPlaces_cons, onPlaces_cons, ih, List.cons_append, List.length_cons,
      Nat.add_assoc first 1, Nat.add_comm 1 before.length]

private theorem get?_onPlaces (h : name ∉ after) (first : Nat) :
    (ofCaches (onPlaces (before ++ name :: after) first)).get? name =
      some ⟨name, .shelf (first + before.length)⟩ := by
  apply get?_ofCaches_eq_some_iff.mpr
  refine ⟨_, _, onPlaces_append before after name first, rfl, ?_⟩
  intro other ho heq
  have hid := List.mem_map_of_mem (f := NamedCache.id) ho
  rw [ids_onPlaces, heq] at hid
  exact h hid

private theorem get?_onPlaces_of_not_mem (h : name ∉ names) (first : Nat) :
    (ofCaches (onPlaces names first)).get? name = none := by
  apply get?_ofCaches_eq_none_iff.mpr
  intro cache hcache heq
  have hid := List.mem_map_of_mem (f := NamedCache.id) hcache
  rw [ids_onPlaces, heq] at hid
  exact h hid

private theorem getElem?_shelved (old : Shelf) (settings : MemorySettings)
    (tables : String → Table String String) (before after : List String) (name : String) :
    (shelved old settings (before ++ name :: after) tables)[old.length + before.length]? =
      some (.memory ⟨settings, tables name⟩) := by
  simp [shelved]

private theorem set_shelved (hdistinct : (before ++ name :: after).Nodup)
    (table : Table String String) :
    (shelved old settings (before ++ name :: after) tables).set (old.length + before.length)
        (.memory ⟨settings, table⟩) =
      shelved old settings (before ++ name :: after) (Function.update tables name table) := by
  have hparts := List.nodup_append.mp hdistinct
  have hother {part : List String} (h : name ∉ part) :
      part.map (fun other =>
          ShelfStore.memory ⟨settings, Function.update tables name table other⟩) =
        part.map fun other => .memory ⟨settings, tables other⟩ := by
    apply List.map_congr_left
    intro other ho
    rw [Function.update_of_ne (ne_of_mem_of_not_mem ho h)]
  have hbefore : name ∉ before := fun h => hparts.2.2 name h name (by simp) rfl
  have hafter : name ∉ after := (List.nodup_cons.mp hparts.2.1).1
  simp only [shelved, List.map_append, List.map_cons, hother hbefore, hother hafter,
    Function.update_self]
  simp

theorem runOn_perform_shelved (server : Redis.Server ν) (host : Host ν) (hdistinct : names.Nodup)
    (hname : name ∈ names) (hkept : kept settings.maxCapacity (tables name) = tables name)
    (request : StoreRequest) :
    ((ofCaches (onPlaces names old.length)).perform (Host.stores server) name request).runOn
        { host with shelf := shelved old settings names tables } =
      (.ok (request.onTable (tables name)).1,
        { host with
          shelf := shelved old settings names
            (Function.update tables name
              (kept settings.maxCapacity (request.onTable (tables name)).2)) }) := by
  obtain ⟨before, after, rfl⟩ := List.append_of_mem hname
  have hafter : name ∉ after := (List.nodup_cons.mp (List.nodup_append.mp hdistinct).2.1).1
  have hstands := getElem?_shelved old settings tables before after name
  rw [runOn_perform_of_known (get?_onPlaces hafter old.length), MemoryStore.runOn_perform_host,
    MemoryStore.runOn_perform_shelf hstands, MemoryStore.serve_eq request hkept,
    set_shelved hdistinct]

/-- Requests by name, in any order, go to separate maps. -/
theorem performAll_shelved (server : Redis.Server ν) (host : Host ν) (hdistinct : names.Nodup)
    (hkept : ∀ name, kept settings.maxCapacity (tables name) = tables name)
    (script : List (String × StoreRequest)) :
    (ofCaches (onPlaces names old.length)).performAll (Host.stores server) script
        { host with shelf := shelved old settings names tables } =
      ((onNamedTables names settings.maxCapacity script tables).1,
        { host with
          shelf := shelved old settings names
            (onNamedTables names settings.maxCapacity script tables).2 }) := by
  induction script generalizing tables with
  | nil => rfl
  | cons step rest ih =>
    obtain ⟨name, request⟩ := step
    rw [performAll, onNamedTables]
    by_cases hname : name ∈ names
    · rw [if_pos hname, runOn_perform_shelved server host hdistinct hname (hkept name)]
      have hnext (other : String) : kept settings.maxCapacity (Function.update tables name
          (kept settings.maxCapacity (request.onTable (tables name)).2) other) =
          Function.update tables name
            (kept settings.maxCapacity (request.onTable (tables name)).2) other := by
        by_cases hother : other = name
        · rw [hother, Function.update_self, kept_kept]
        · rw [Function.update_of_ne hother, hkept other]
      simp only [ih hnext]
    · rw [if_neg hname, runOn_perform_of_unknown (get?_onPlaces_of_not_mem hname old.length)]
      simp only [ih hkept]

theorem ofSettings_shelved (network : Redis.Network ν) {settings : Settings}
    (hnames : validate settings.namespaces = .ok ())
    (hbackend : BackendType.parse settings.cache.backend = .ok .inMemory)
    (hlifetimes : ¬ settings.cache.Overlong) (host : Host ν) :
    ofSettings network settings host =
      (.ok (ofCaches (onPlaces settings.namespaces host.shelf.length)),
        { host with
          shelf := shelved host.shelf settings.cache.memory settings.namespaces
            fun _ => Table.empty }) := by
  have hbuildable := settings.cache.buildable_memory_iff.mpr hlifetimes
  rw [ofSettings_of_accepted network hnames hbackend, createMemory_of_buildable hbuildable,
    shelved, List.map_const']
  rfl

/-- A registry keeps the last cache listed under each id, once and in the order of the bytes of the
ids. One in memory is built for every accepted list of namespaces and supported lifetimes, registers
exactly these namespaces, and answers requests by namespace, in any order, as separate maps of the
capacity that is set do. -/
theorem keeps_last_and_serves_apart :
    (∀ {σ : Type} (caches : List (NamedCache σ)), (ofCaches caches).Keeps caches) ∧
    ∀ {ν : Type} (network : Redis.Network ν) (settings : Settings) (host : Host ν),
      validate settings.namespaces = .ok () →
      BackendType.parse settings.cache.backend = .ok .inMemory → ¬ settings.cache.Overlong →
      ∃ registry built, ofSettings network settings host = (.ok registry, built) ∧
        (∀ name, (∃ cache, registry.get? name = some cache) ↔ name ∈ settings.namespaces) ∧
        registry.size = settings.namespaces.length ∧
        (∀ script, registry.performAll (Host.stores network.server) script built =
          match onNamedTables settings.namespaces settings.cache.memory.maxCapacity script
            fun _ => Table.empty with
          | (answers, tables) => (answers,
            { host with
              shelf := host.shelf ++ settings.namespaces.map fun name =>
                .memory ⟨settings.cache.memory, tables name⟩ })) ∧
        ∀ name, name ∉ settings.namespaces → ∀ request world,
          (registry.perform (Host.stores network.server) name request).runOn world =
            (.error (.configuration (.unknownNamespace name)), world) := by
  refine ⟨keeps_ofCaches, ?_⟩
  intro ν network settings host hnames hbackend hlifetimes
  have hdistinct : settings.namespaces.Nodup := (usable_of_validate hnames).distinct
  refine ⟨_, _, ofSettings_shelved network hnames hbackend hlifetimes host, ?_, ?_, ?_, ?_⟩
  · intro name
    rw [← Option.ne_none_iff_exists', Ne, get?_ofCaches_eq_none_iff]
    have hmem := congrArg (name ∈ ·) (ids_onPlaces settings.namespaces host.shelf.length)
    simpa [List.mem_map] using hmem
  · rw [size_ofCaches, ids_onPlaces, List.toFinset_card_of_nodup hdistinct]
  · intro script
    exact performAll_shelved network.server host hdistinct (fun _ => kept_empty _) script
  · intro name hname request world
    exact runOn_perform_of_unknown (get?_onPlaces_of_not_mem hname host.shelf.length) _ _ _

/-- Two namespaces keep texts of their own under one name, and there is no third. -/
theorem keeps_last_and_serves_apart_of_two_namespaces :
    let settings : Settings := { namespaces := ["users", "orders"] }
    let script : List (String × StoreRequest) :=
      [("users", .put "k" "1"), ("orders", .contains "k"), ("orders", .put "k" "2"),
        ("archive", .put "k" "3"), ("users", .clear), ("orders", .get "k"), ("users", .size)]
    ∃ registry built,
      ofSettings Redis.Network.silent settings ⟨[], ()⟩ = (.ok registry, built) ∧
        registry.size = 2 ∧
        (registry.performAll (Host.stores Redis.Network.silent.server) script built).1 =
          [.ok .done, .ok (.flag false), .ok .done,
            .error (.configuration (.unknownNamespace "archive")), .ok .done,
            .ok (.text (some "2")), .ok (.count 0)] := by
  intro settings script
  have hnames : validate settings.namespaces = .ok () := rfl
  have hlifetimes : ¬ settings.cache.Overlong := by decide
  obtain ⟨registry, built, hbuilt, -, hsize, hserves, -⟩ := keeps_last_and_serves_apart.2
    Redis.Network.silent settings ⟨[], ()⟩ hnames BackendType.parse_in_memory hlifetimes
  refine ⟨registry, built, hbuilt, hsize, ?_⟩
  rw [hserves script]
  rfl

end Registry
end ResultCache
