import Mathlib.Logic.Function.Basic
import ResultCache.Store.Shelf

/-! # Stores that act as maps -/

namespace ResultCache

variable {σ ω α β : Type}

/-- What a store keeps: the text under each name. -/
abbrev Texts := String → Option String

/-- A call on one store of many acts as an operation on a map; unless that store is healthy, the
call may also fail, and its effect may be lost. -/
structure ActsOn [DecidableEq σ] (held : ω → σ → Texts) (healthy : ω → σ → Prop) (store : σ)
    (call : Action ω α) (answer : Texts → α) (change : Texts → Texts) : Prop where
  keeps : ∀ world other, healthy world other → healthy (call.runOn world).2 other
  answers : ∀ world, (call.runOn world).1 = .ok (answer (held world store)) ∨
    ¬ healthy world store ∧ ∃ e, (call.runOn world).1 = .error e
  changes : ∀ world,
    held (call.runOn world).2 =
        Function.update (held world) store (change (held world store)) ∨
      ¬ healthy world store ∧ held (call.runOn world).2 = held world

/-- Stores that act as maps. -/
structure MapFamily [DecidableEq σ] (stores : Stores σ ω) where
  /-- What every store keeps in a world. -/
  held : ω → σ → Texts
  /-- Whether no call on a store fails or loses its effect, now and later. -/
  healthy : ω → σ → Prop
  get : ∀ store name,
    ActsOn held healthy store (stores.get store name) (fun texts => texts name) id
  put : ∀ store name text,
    ActsOn held healthy store (stores.put store name text) (fun _ => ())
      fun texts => Function.update texts name (some text)
  remove : ∀ store name,
    ActsOn held healthy store (stores.remove store name) (fun texts => (texts name).isSome)
      fun texts => Function.update texts name none
  clear : ∀ store, ActsOn held healthy store (stores.clear store) (fun _ => ()) fun _ _ => none

namespace ActsOn

variable [DecidableEq σ] {held : ω → σ → Texts} {healthy : ω → σ → Prop} {store : σ}
  {call : Action ω α} {answer : Texts → α} {change : Texts → Texts}

theorem answer_eq (h : ActsOn held healthy store call answer change) {world : ω}
    (hw : healthy world store) : (call.runOn world).1 = .ok (answer (held world store)) := by
  rcases h.answers world with ha | ha
  · exact ha
  · exact absurd hw ha.1

theorem held_eq (h : ActsOn held healthy store call answer change) {world : ω}
    (hw : healthy world store) :
    held (call.runOn world).2 = Function.update (held world) store (change (held world store)) := by
  rcases h.changes world with hc | hc
  · exact hc
  · exact absurd hw hc.1

end ActsOn

namespace MapFamily

variable [DecidableEq σ] {stores : Stores σ ω}

@[simp] theorem held_get (maps : MapFamily stores) (store : σ) (name : String) (world : ω) :
    maps.held ((stores.get store name).runOn world).2 = maps.held world := by
  rcases (maps.get store name).changes world with h | h
  · rw [h, id, Function.update_eq_self]
  · exact h.2

end MapFamily

namespace MapStore

/-- Whether no call fails. -/
def Healthy (store : MapStore) : Prop :=
  ∀ kind, (store.failures.find? kind).or store.failure = none

private theorem healthy_call (store : MapStore) (kind : CallKind) (name : String)
    (effect : Table String String → α × Table String String) (h : store.Healthy) :
    (store.call kind name effect).2.Healthy := by
  simp only [call, h kind]
  exact h

theorem answer_call (store : MapStore) (kind : CallKind) (name : String)
    (effect : Table String String → α × Table String String) :
    (store.call kind name effect).1 = .ok (effect store.entries).1 ∨
      ¬ store.Healthy ∧ ∃ e, (store.call kind name effect).1 = .error e := by
  cases hf : (store.failures.find? kind).or store.failure with
  | none => exact .inl (by simp only [call, hf])
  | some words =>
    refine .inr ⟨fun h => by simp [h kind] at hf, .cache (.reported words), ?_⟩
    simp only [call, hf]

theorem entries_call (store : MapStore) (kind : CallKind) (name : String)
    (effect : Table String String → α × Table String String) :
    (store.call kind name effect).2.entries = (effect store.entries).2 ∨
      ¬ store.Healthy ∧ (store.call kind name effect).2.entries = store.entries := by
  cases hf : (store.failures.find? kind).or store.failure with
  | none => exact .inl (by simp only [call, hf])
  | some words => exact .inr ⟨fun h => by simp [h kind] at hf, by simp only [call, hf]⟩

end MapStore

namespace ShelfStore

def texts : ShelfStore → Texts
  | .map store => store.entries.find?
  | .memory store => store.get

/-- Whether no call fails or loses its effect. A store in memory without capacity keeps nothing. -/
def Healthy : ShelfStore → Prop
  | .map store => store.Healthy
  | .memory store => store.settings.maxCapacity ≠ 0

/-- An operation on a store acts as one on a map, unless the store is not healthy. -/
structure Acts (operation : ShelfStore → Except Error α × ShelfStore) (answer : Texts → α)
    (change : Texts → Texts) : Prop where
  keeps : ∀ store, store.Healthy → (operation store).2.Healthy
  answers : ∀ store, (operation store).1 = .ok (answer store.texts) ∨
    ¬ store.Healthy ∧ ∃ e, (operation store).1 = .error e
  changes : ∀ store, (operation store).2.texts = change store.texts ∨
    ¬ store.Healthy ∧ (operation store).2.texts = store.texts

/-- An operation acts as one on a map if its effect on entries and its part for stores in memory
do. -/
private theorem acts_operate (kind : CallKind) (name : String)
    (effect : Table String String → α × Table String String)
    (onMemory : MemoryStore → α × MemoryStore) {answer : Texts → α} {change : Texts → Texts}
    (entries : ∀ table, (effect table).1 = answer table.find? ∧
      (effect table).2.find? = change table.find?)
    (memory : ∀ store : MemoryStore, (onMemory store).1 = answer store.get ∧
      (onMemory store).2.settings = store.settings ∧
      (store.settings.maxCapacity ≠ 0 → (onMemory store).2.get = change store.get) ∧
      (store.settings.maxCapacity = 0 →
        (onMemory store).2.get = change store.get ∨ (onMemory store).2.get = store.get)) :
    Acts (operate (fun store => store.call kind name effect) onMemory) answer change where
  keeps
    | .map store, h => store.healthy_call kind name effect h
    | .memory store, h => by
      change (onMemory store).2.settings.maxCapacity ≠ 0
      rw [(memory store).2.1]
      exact h
  answers
    | .map store => by
      have h := store.answer_call kind name effect
      rw [(entries store.entries).1] at h
      exact h
    | .memory store => .inl (congrArg Except.ok (memory store).1)
  changes
    | .map store => by
      rcases store.entries_call kind name effect with h | h
      · exact .inl ((congrArg Table.find? h).trans (entries store.entries).2)
      · exact .inr ⟨h.1, congrArg Table.find? h.2⟩
    | .memory store => by
      by_cases hc : store.settings.maxCapacity = 0
      · rcases (memory store).2.2.2 hc with h | h
        · exact .inl h
        · exact .inr ⟨fun hn => hn hc, h⟩
      · exact .inl ((memory store).2.2.1 hc)

end ShelfStore

namespace Shelf

def held (shelf : Shelf) (place : Nat) : Texts := fun name =>
  shelf[place]?.bind fun store => store.texts name

theorem held_set (store : MapStore) (name text : String) :
    held [.map { store with entries := store.entries.set name text }] 0 name = some text := by
  simp [held, ShelfStore.texts]

/-- Whether a healthy store stands at a place. -/
def Healthy (shelf : Shelf) (place : Nat) : Prop :=
  ∃ store, shelf[place]? = some store ∧ store.Healthy

theorem actsOn_operateAt {operation : ShelfStore → Except Error α × ShelfStore}
    {answer : Texts → α} {change : Texts → Texts}
    (acts : ShelfStore.Acts operation answer change) (place : Nat) :
    ActsOn held Healthy place (operateAt place operation) answer change where
  keeps shelf other h := by
    obtain ⟨store, hs, hh⟩ := h
    cases hp : shelf[place]? with
    | none => exact ⟨store, by simpa [operateAt, hp] using hs, hh⟩
    | some target =>
      have hlt : place < shelf.length := (List.getElem?_eq_some_iff.mp hp).1
      by_cases ho : place = other
      · subst ho
        have htarget : target = store := Option.some.inj (hp.symm.trans hs)
        refine ⟨(operation target).2, ?_, acts.keeps target (htarget ▸ hh)⟩
        simp only [operateAt, Action.runOn_ofFunction, hp]
        exact List.getElem?_set_self hlt
      · exact ⟨store, by simp [operateAt, hp, List.getElem?_set_ne ho, hs], hh⟩
  answers shelf := by
    cases hp : shelf[place]? with
    | none =>
      refine .inr ⟨fun h => ?_, .internal "no store stands at this place", ?_⟩
      · obtain ⟨store, hs, -⟩ := h
        simp [hp] at hs
      · simp only [operateAt, Action.runOn_ofFunction, hp]
    | some target =>
      have htexts : held shelf place = target.texts := by
        funext name
        simp [held, hp]
      simp only [operateAt, Action.runOn_ofFunction, hp, htexts]
      rcases acts.answers target with h | h
      · exact .inl h
      · refine .inr ⟨fun hh => h.1 ?_, h.2⟩
        obtain ⟨store, hs, hstore⟩ := hh
        rw [hp] at hs
        rwa [Option.some.inj hs]
  changes shelf := by
    cases hp : shelf[place]? with
    | none =>
      refine .inr ⟨fun h => ?_, by simp only [operateAt, Action.runOn_ofFunction, hp]⟩
      obtain ⟨store, hs, -⟩ := h
      simp [hp] at hs
    | some target =>
      have hlt : place < shelf.length := (List.getElem?_eq_some_iff.mp hp).1
      have htexts : held shelf place = target.texts := by
        funext name
        simp [held, hp]
      have hset : held (shelf.set place (operation target).2) =
          Function.update (held shelf) place (operation target).2.texts := by
        funext other name
        by_cases ho : place = other
        · subst ho
          simp [held, hlt]
        · simp [held, List.getElem?_set_ne ho, Function.update_of_ne (Ne.symm ho)]
      simp only [operateAt, Action.runOn_ofFunction, hp, hset, htexts]
      rcases acts.changes target with h | h
      · exact .inl (by rw [h])
      · refine .inr ⟨fun hh => h.1 ?_, by rw [h.2, ← htexts, Function.update_eq_self]⟩
        obtain ⟨store, hs, hstore⟩ := hh
        rw [hp] at hs
        rwa [Option.some.inj hs]

def maps : MapFamily Shelf.stores where
  held := held
  healthy := Healthy
  get place name := actsOn_operateAt (ShelfStore.acts_operate .get name
    (fun entries => (entries.find? name, entries)) (fun store => (store.get name, store))
    (fun _ => ⟨rfl, rfl⟩) fun _ => ⟨rfl, rfl, fun _ => rfl, fun _ => .inl rfl⟩) place
  put place name text := actsOn_operateAt (ShelfStore.acts_operate .put name
    (fun entries => ((), entries.set name text)) (fun store => ((), store.put name text))
    (fun table => ⟨rfl, by funext other; simp [Function.update_apply]⟩)
    fun store => ⟨rfl, by simp only [MemoryStore.put]; split <;> rfl,
      fun h => by funext other; simp [MemoryStore.get_put _ _ _ _ h, Function.update_apply],
      fun h => .inr (by simp only [MemoryStore.put, if_pos h])⟩) place
  remove place name := actsOn_operateAt (ShelfStore.acts_operate .remove name
    (fun entries => (entries.contains name, entries.erase name))
    (fun store => ((store.get name).isSome, store.remove name))
    (fun table => ⟨rfl, by funext other; simp [Function.update_apply]⟩)
    fun store => ⟨rfl, rfl, fun _ => by funext other; simp [Function.update_apply],
      fun _ => .inl (by funext other; simp [Function.update_apply])⟩) place
  clear place := actsOn_operateAt (ShelfStore.acts_operate .clear ""
    (fun _ => ((), Table.empty)) (fun store => ((), store.clear))
    (fun _ => ⟨rfl, by funext other; simp⟩)
    fun _ => ⟨rfl, rfl, fun _ => by funext other; rfl, fun _ => .inl (by funext other; rfl)⟩) place

end Shelf
end ResultCache
