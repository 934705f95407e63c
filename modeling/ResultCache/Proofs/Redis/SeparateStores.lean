import ResultCache.Proofs.Redis.Scopes
import ResultCache.Proofs.StoreRequests

/-! # Separate stores on one server -/

namespace ResultCache.Redis

open Pattern Scope

variable {ν : Type} {call : Answering ν} {root : Scope} {spaces : Set String}

/-- Namespaces whose keys can be told apart, and whose patterns match no other keys. -/
structure Separate (root : Scope) (spaces : Set String) : Prop where
  keyPrefix : ∀ s ∈ root.keyPrefix, Plain s
  plain : ∀ space ∈ spaces, Plain space
  colonless : ∀ space ∈ spaces, ':' ∉ space.toList

namespace Separate

private theorem eq_of_owns (h : Separate root spaces) {a b name : String} (ha : a ∈ spaces)
    (hb : b ∈ spaces) (howns : (root.namespaced a).Owns ((root.namespaced b).keyOf name)) :
    a = b := by
  have hcolon (s t : String) : ':' ∈ (s ++ ":" ++ t).toList := by
    simp [String.toList_append]
  by_contra hne
  rcases (owns_keyOf_namespaced_iff hne).mp howns with ⟨tail, rfl⟩ | ⟨tail, rest, rfl, -⟩
  · exact h.colonless _ hb (hcolon a tail)
  · exact h.colonless _ ha (hcolon b tail)

end Separate

/-- The keys of every namespace hold the entries of a map of its own; beside them the server keeps
the given texts. -/
structure Simulates (root : Scope) (spaces : Set String) (others texts : Texts)
    (tables : String → Table String String) : Prop where
  own : ∀ space ∈ spaces, ∀ name,
    texts ((root.namespaced space).keyOf name) = (tables space).find? name
  beside : ∀ key, (∀ space ∈ spaces, ¬ (root.namespaced space).Owns key) → texts key = others key

namespace Simulates

variable {others texts changed : Texts} {tables : String → Table String String}
  {table : Table String String} {space : String}

private theorem update (h : Simulates root spaces others texts tables)
    (hspaces : Separate root spaces) (hspace : space ∈ spaces)
    (hown : ∀ name, changed ((root.namespaced space).keyOf name) = table.find? name)
    (hframe : ∀ key, ¬ (root.namespaced space).Owns key → changed key = texts key) :
    Simulates root spaces others changed (Function.update tables space table) where
  own other hother name := by
    rcases eq_or_ne other space with rfl | hne
    · rw [hown, Function.update_self]
    · have hforeign : ¬ (root.namespaced space).Owns ((root.namespaced other).keyOf name) :=
        fun howns => hne (hspaces.eq_of_owns hspace hother howns).symm
      rw [hframe _ hforeign, Function.update_of_ne hne, h.own other hother name]
  beside key hkey := by
    rw [hframe key (hkey space hspace), h.beside key hkey]

private theorem write (h : Simulates root spaces others texts tables)
    (hspaces : Separate root spaces)
    (hspace : space ∈ spaces) {name : String} {value : Option String}
    (htable : ∀ other, table.find? other = if other = name then value
      else (tables space).find? other) :
    Simulates root spaces others
      (Function.update texts ((root.namespaced space).keyOf name) value)
      (Function.update tables space table) := by
  apply h.update hspaces hspace
  · intro other
    simp only [Function.update_apply, keyOf_inj, h.own space hspace, htable]
  · intro key hkey
    have hne : key ≠ (root.namespaced space).keyOf name := fun heq => hkey ⟨name, heq⟩
    rw [Function.update_of_ne hne]

private theorem length_eq_size (h : Simulates root spaces others texts tables)
    (hspace : space ∈ spaces) {keys : List String} (hnodup : keys.Nodup)
    (hkeys : ∀ key, key ∈ keys ↔ (texts key).isSome ∧ (root.namespaced space).Owns key) :
    keys.length = (tables space).size := by
  have hnames : ((tables space).keys.map (root.namespaced space).keyOf).Nodup :=
    (tables space).distinct.map fun _ _ heq => keyOf_inj.mp heq
  have hperm : keys.Perm ((tables space).keys.map (root.namespaced space).keyOf) := by
    rw [List.perm_ext_iff_of_nodup hnodup hnames]
    intro key
    rw [hkeys, List.mem_map]
    constructor
    · rintro ⟨hsome, name, rfl⟩
      rw [h.own space hspace] at hsome
      exact ⟨name, ((tables space).mem_keys_iff name).mpr hsome, rfl⟩
    · rintro ⟨name, hname, rfl⟩
      rw [h.own space hspace]
      exact ⟨((tables space).mem_keys_iff name).mp hname, name, rfl⟩
  rw [hperm.length_eq, List.length_map, Table.keys, List.length_map, Table.size]

theorem perform {flat : Flat call} {world : ν} (once : ListsOnce call)
    (hspaces : Separate root spaces)
    (h : Simulates root spaces others (flat.held world) tables) (hspace : space ∈ spaces)
    (request : StoreRequest) : ∃ texts,
      flat.Does (fun server => request.perform (stores server) (root.namespaced space)) world
        (request.onTable (tables space)).1 texts ∧
      Simulates root spaces others texts
        (Function.update tables space (request.onTable (tables space)).2) := by
  have hself := Function.update_eq_self space tables
  have hown := h.own space hspace
  have hplain := plain_stem_namespaced hspaces.keyPrefix (hspaces.plain space hspace)
  have hscoped := isScoped_namespaced root space
  cases request with
  | get name =>
    have hget := (flat.does_get (root.namespaced space) world name).map StoreAnswer.text
    rw [hown] at hget
    refine ⟨_, hget, ?_⟩
    simpa only [StoreRequest.onTable, hself] using h
  | put name text =>
    have hput := (flat.does_put (root.namespaced space) world name text).map fun _ =>
      StoreAnswer.done
    exact ⟨_, hput, h.write hspaces hspace fun other => Table.find?_set _ _ _ _⟩
  | remove name =>
    have hremove := (flat.does_remove (root.namespaced space) world name).map StoreAnswer.flag
    rw [hown] at hremove
    exact ⟨_, hremove, h.write hspaces hspace fun other => Table.find?_erase _ _ _⟩
  | contains name =>
    have hcontains := (flat.does_contains (root.namespaced space) world name).map StoreAnswer.flag
    rw [hown] at hcontains
    refine ⟨_, hcontains, ?_⟩
    simpa only [StoreRequest.onTable, hself] using h
  | clear =>
    have hclear := (does_clear_owned flat hscoped hplain world).map fun _ => StoreAnswer.done
    refine ⟨_, hclear, h.update hspaces hspace (fun name => ?_) fun key hkey => ?_⟩
    · exact if_pos ⟨name, rfl⟩
    · exact if_neg hkey
  | size =>
    obtain ⟨keys, hsize, hkeys, hnodup⟩ := does_size_owned flat hscoped hplain world
    have hcount := hsize.map StoreAnswer.count
    rw [h.length_eq_size hspace (hnodup once) hkeys] at hcount
    refine ⟨_, hcount, ?_⟩
    simpa only [StoreRequest.onTable, hself] using h

/-- Requests in any order have the answers and the effects that they have on separate maps. -/
theorem performAll {flat : Flat call} {world : ν} (once : ListsOnce call)
    (hspaces : Separate root spaces)
    (h : Simulates root spaces others (flat.held world) tables)
    {script : List (String × StoreRequest)} (hscript : ∀ step ∈ script, step.1 ∈ spaces) :
    ∃ after enough, (∀ patience, enough ≤ patience →
      StoreRequest.performAll (stores ⟨call, patience⟩) (script.map (.map root.namespaced id))
          world =
        ((StoreRequest.onTables script tables).1.map .ok, after)) ∧
      Simulates root spaces others (flat.held after) (StoreRequest.onTables script tables).2 := by
  induction script generalizing world tables with
  | nil => exact ⟨world, 0, fun _ _ => rfl, h⟩
  | cons step script ih =>
    obtain ⟨space, request⟩ := step
    have hspace : space ∈ spaces := hscript _ List.mem_cons_self
    obtain ⟨texts, ⟨between, ⟨m, hstep⟩, rfl⟩, hbetween⟩ :=
      perform once hspaces h hspace request
    obtain ⟨after, n, hrest, hafter⟩ :=
      ih hbetween fun step hs => hscript step (List.mem_cons_of_mem _ hs)
    refine ⟨after, max m n, fun patience hp => ?_, hafter⟩
    have hfirst := hstep patience (Nat.le_trans (Nat.le_max_left m n) hp)
    have hothers := hrest patience (Nat.le_trans (Nat.le_max_right m n) hp)
    simp only [List.map_cons, Prod.map, id, StoreRequest.performAll, hfirst, hothers,
      StoreRequest.onTables]

end Simulates

/-- Requests through the handles of namespaces without colons, in any order, are answered as by
separate maps, one for each namespace; keys of none of the namespaces keep their texts. -/
theorem answers_performAll_eq_answers_onTables (flat : Flat call) (once : ListsOnce call)
    (hspaces : Separate root spaces) {world : ν}
    (fresh : ∀ space ∈ spaces, ∀ key, (root.namespaced space).Owns key →
      flat.held world key = none)
    {script : List (String × StoreRequest)} (hscript : ∀ step ∈ script, step.1 ∈ spaces) :
    ∃ after enough, (∀ patience, enough ≤ patience →
      StoreRequest.performAll (stores ⟨call, patience⟩) (script.map (.map root.namespaced id))
          world =
        ((StoreRequest.onTables script fun _ => Table.empty).1.map .ok, after)) ∧
      ∀ key, (∀ space ∈ spaces, ¬ (root.namespaced space).Owns key) →
        flat.held after key = flat.held world key := by
  have hstart : Simulates root spaces (flat.held world) (flat.held world) fun _ => Table.empty :=
    ⟨fun space hspace name => fresh space hspace _ ⟨name, rfl⟩, fun _ _ => rfl⟩
  obtain ⟨after, enough, hanswers, hafter⟩ := hstart.performAll once hspaces hscript
  exact ⟨after, enough, hanswers, hafter.beside⟩

/-- Two namespaces share a server with another program. Names of entries may hold colons and
stars. -/
theorem answers_performAll_of_users_and_orders :
    let root : Scope := ⟨some "app", none, 60⟩
    let script : List (String × StoreRequest) :=
      [("users", .put "a:*" "1"), ("orders", .put "a:*" "2"), ("users", .size), ("users", .clear),
        ("users", .contains "a:*"), ("orders", .get "a:*"), ("orders", .remove "b")]
    ∃ after enough, (∀ patience, enough ≤ patience →
      StoreRequest.performAll (stores ⟨TwoPages.call 1, patience⟩)
          (script.map (.map root.namespaced id)) (Table.empty.set "app:jobs" "x") =
        ([.ok .done, .ok .done, .ok (.count 1), .ok .done, .ok (.flag false),
          .ok (.text (some "2")), .ok (.flag false)], after)) ∧
      after.find? "app:jobs" = some "x" := by
  intro root script
  let spaces : Set String := {"users", "orders"}
  have hspaces : Separate root spaces := by
    refine ⟨?_, ?_, ?_⟩
    · rintro s ⟨⟩
      simp [Plain, Registry.isGlobChar]
    · rintro s (rfl | rfl) <;> simp [Plain, Registry.isGlobChar]
    · rintro s (rfl | rfl) <;> simp
  have hforeign : ∀ space ∈ spaces, ¬ (root.namespaced space).Owns "app:jobs" := by
    rintro space (rfl | rfl) <;> decide
  let world : Table String String := Table.empty.set "app:jobs" "x"
  have fresh : ∀ space ∈ spaces, ∀ key, (root.namespaced space).Owns key →
      (TwoPages.flat 1).held world key = none := by
    intro space hspace key howns
    have hne : key ≠ "app:jobs" := fun heq => hforeign space hspace (heq ▸ howns)
    exact (Table.find?_set _ _ _ _).trans (if_neg hne)
  have husers : "users" ∈ spaces := .inl rfl
  have horders : "orders" ∈ spaces := .inr rfl
  have hscript : ∀ step ∈ script, step.1 ∈ spaces := by
    simp [script, husers, horders]
  obtain ⟨after, enough, hanswers, hothers⟩ :=
    answers_performAll_eq_answers_onTables (TwoPages.flat 1) (TwoPages.listsOnce 1) hspaces fresh
      hscript
  exact ⟨after, enough, hanswers, hothers "app:jobs" hforeign⟩

end ResultCache.Redis
