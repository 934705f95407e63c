import ResultCache.Proofs.Interleaving

/-!
# What the outcome of an operation depends on

Logs, and whatever else no call looks at, have no say in it.
-/

namespace ResultCache

variable {σ ω η α β : Type}

namespace Action

/-- What a step answers, and what can be told of the world after it, depends only on what can be
told of the world before it. -/
def DependsOn (tell : ω → η) (action : Action ω α) : Prop :=
  ∀ world other, tell world = tell other →
    (action.runOn world).1 = (action.runOn other).1 ∧
      tell (action.runOn world).2 = tell (action.runOn other).2

variable {tell : ω → η}

theorem dependsOn_pure (x : α) : DependsOn tell (pure x) := fun _ _ h => ⟨rfl, h⟩

theorem dependsOn_ofResult (result : Except Error α) : DependsOn tell (ofResult result) :=
  fun _ _ h => ⟨rfl, h⟩

theorem DependsOn.bind {action : Action ω α} {next : α → Action ω β} (h : action.DependsOn tell)
    (hnext : ∀ x, (next x).DependsOn tell) : (action >>= next).DependsOn tell := by
  intro world other hw
  obtain ⟨hanswer, hafter⟩ := h world other hw
  rw [runOn_bind, runOn_bind]
  revert hanswer hafter
  rcases action.runOn world with ⟨e | x, after⟩ <;>
    rcases action.runOn other with ⟨e' | x', after'⟩
  · intro hanswer hafter
    cases hanswer
    exact ⟨rfl, hafter⟩
  · exact fun hanswer => nomatch hanswer
  · exact fun hanswer => nomatch hanswer
  · intro hanswer hafter
    cases hanswer
    exact hnext x after after' hafter

theorem DependsOn.map (f : α → β) {action : Action ω α} (h : action.DependsOn tell) :
    (f <$> action).DependsOn tell := by
  rw [← bind_pure_comp]
  exact h.bind fun x => dependsOn_pure (f x)

private theorem dependsOn_forM {entries : List β} {step : β → Action ω Unit}
    (h : ∀ entry, (step entry).DependsOn tell) : DependsOn tell (entries.forM step) := by
  induction entries with
  | nil => exact dependsOn_pure ()
  | cons entry rest ih => exact (h entry).bind fun _ => ih

end Action

/-- The calls that transactions make on stores depend only on what can be told of the world, and a
reading call leaves that alone. -/
structure Stores.DependOn (stores : Stores σ ω) (tell : ω → η) : Prop where
  get : ∀ store name, (stores.get store name).DependsOn tell
  put : ∀ store name text, (stores.put store name text).DependsOn tell
  remove : ∀ store name, (stores.remove store name).DependsOn tell
  clear : ∀ store, (stores.clear store).DependsOn tell
  unchanged : ∀ store name world, tell ((stores.get store name).runOn world).2 = tell world

variable {stores : Stores σ ω} {tell : ω → η}

namespace View

private theorem dependsOn_get (h : stores.DependOn tell) (view : View σ) (key : Key) :
    (view.get stores key).DependsOn tell := by
  rw [get]
  split
  · exact Action.dependsOn_pure none
  · split
    · exact Action.dependsOn_pure _
    · exact h.get view.cache.store key.storageKey

private theorem tell_get (h : stores.DependOn tell) (view : View σ) (key : Key) (world : ω) :
    tell ((view.get stores key).runOn world).2 = tell world := by
  rw [get]
  split
  · rfl
  · split
    · rfl
    · exact h.unchanged view.cache.store key.storageKey world

private theorem dependsOn_publish (h : stores.DependOn tell) (view : View σ) :
    (view.publish stores).DependsOn tell := by
  unfold publish publishInOrder
  have hrest : Action.DependsOn tell (do
      view.removals.keys.forM fun key => discard (stores.remove view.cache.store key.storageKey)
      view.writes.entries.forM fun entry =>
        stores.put view.cache.store entry.1.storageKey entry.2) := by
    refine Action.DependsOn.bind (Action.dependsOn_forM fun key => ?_) fun _ => ?_
    · exact (h.remove view.cache.store key.storageKey).map _
    · exact Action.dependsOn_forM fun entry => h.put view.cache.store entry.1.storageKey entry.2
  cases view.cleared with
  | false => exact hrest
  | true => exact (h.clear view.cache.store).bind fun _ => hrest

end View

namespace Transaction

private theorem publishAll_eq (h : stores.DependOn tell) (views : List (View σ)) {world other : ω}
    (hw : tell world = tell other) :
    (publishAll stores views world).1 = (publishAll stores views other).1 ∧
      tell (publishAll stores views world).2 = tell (publishAll stores views other).2 := by
  induction views generalizing world other with
  | nil => exact ⟨rfl, hw⟩
  | cons view rest ih =>
    obtain ⟨hresult, hafter⟩ := View.dependsOn_publish h view world other hw
    obtain ⟨hlater, hlast⟩ := ih hafter
    rw [publishAll, publishAll]
    dsimp only
    rw [hresult]
    cases ((view.publish stores).runOn other).1 with
    | ok _ => exact ⟨hlater, hlast⟩
    | error e => exact ⟨rfl, hlast⟩

end Transaction

namespace Operation

/-- What an operation answers, and what can be told of the world after it, depends only on what is
staged and on what can be told of the world before it. -/
theorem perform_eq (h : stores.DependOn tell) {tx other : Transaction σ}
    (hviews : tx.views = other.views) {world world' : ω} (hw : tell world = tell world')
    (op : Operation σ α) :
    ((op.perform stores).runOn (tx, world)).1 = ((op.perform stores).runOn (other, world')).1 ∧
      tell ((op.perform stores).runOn (tx, world)).2.2 =
        tell ((op.perform stores).runOn (other, world')).2.2 := by
  have hview : ∀ cache, tx.viewOf cache = other.viewOf cache := fun cache => by
    rw [Transaction.viewOf, Transaction.viewOf, hviews]
  cases op with
  | clear cache => exact ⟨rfl, hw⟩
  | put cache key payload =>
    simp only [perform, Action.runOn_ofFunction, Transaction.put]
    cases payload.encode <;> exact ⟨rfl, hw⟩
  | remove cache key => exact ⟨rfl, hw⟩
  | get cache key reader =>
    obtain ⟨hanswer, hafter⟩ := View.dependsOn_get h (other.viewOf cache) key world world' hw
    refine ⟨?_, ?_⟩
    · rw [perform, Transaction.runOn_get, Transaction.runOn_get, Transaction.runOn_getText,
        Transaction.runOn_getText, hview, hanswer]
      rcases (((other.viewOf cache).get stores key).runOn world').1 with _ | _ | _ <;> rfl
    · rw [perform, state_get, state_get, hview]
      exact hafter
  | commit order =>
    obtain ⟨hanswer, hafter⟩ := Transaction.publishAll_eq h
      ((order.views other.views).map order.arrange) hw
    refine ⟨?_, ?_⟩
    · rw [perform, Action.runOn_bind, Action.runOn_bind, Transaction.runOn_commitIn,
        Transaction.runOn_commitIn, hviews]
      dsimp only
      rw [hanswer]
      cases (Transaction.publishAll stores _ world').1 <;> rfl
    · rw [state_commit, state_commit, Transaction.runOn_commitIn, Transaction.runOn_commitIn,
        hviews]
      exact hafter
  | rollback => exact ⟨rfl, hw⟩

theorem tell_perform (h : stores.DependOn tell) {op : Operation σ α}
    (hop : ∀ order, op ≠ .commit order) (tx : Transaction σ) (world : ω) :
    tell ((op.perform stores).runOn (tx, world)).2.2 = tell world := by
  cases op with
  | clear cache => rfl
  | put cache key payload =>
    simp only [perform, Action.runOn_ofFunction, Transaction.put]
    cases payload.encode <;> rfl
  | remove cache key => rfl
  | get cache key reader =>
    rw [perform, state_get]
    exact View.tell_get h (tx.viewOf cache) key world
  | commit order => exact absurd rfl (hop order)
  | rollback => rfl

end Operation

def MapStore.unlogged (store : MapStore) : MapStore := { store with calls := [] }

private theorem MapStore.call_unlogged (store : MapStore) (kind : CallKind) (name : String)
    (effect : Table String String → α × Table String String) :
    (store.unlogged.call kind name effect).1 = (store.call kind name effect).1 ∧
      (store.unlogged.call kind name effect).2.unlogged =
        (store.call kind name effect).2.unlogged := by
  cases hf : (store.failures.find? kind).or store.failure with
  | none => simp only [call, unlogged, hf, and_self]
  | some words => simp only [call, unlogged, hf, and_self]

namespace ShelfStore

def unlogged : ShelfStore → ShelfStore
  | map store => map store.unlogged
  | memory store => memory store

private theorem texts_unlogged (store : ShelfStore) : store.unlogged.texts = store.texts := by
  cases store <;> rfl

def Overlooks (operation : ShelfStore → Except Error α × ShelfStore) : Prop :=
  ∀ store, (operation store.unlogged).1 = (operation store).1 ∧
    (operation store.unlogged).2.unlogged = (operation store).2.unlogged

theorem overlooks_operate (kind : CallKind) (name : String)
    (effect : Table String String → α × Table String String)
    (onMemory : MemoryStore → α × MemoryStore) :
    Overlooks (operate (fun store => store.call kind name effect) onMemory)
  | map store =>
    have h := store.call_unlogged kind name effect
    ⟨h.1, congrArg map h.2⟩
  | memory _ => ⟨rfl, rfl⟩

theorem unlogged_operate (kind : CallKind) (name : String) (read : Table String String → α)
    (readMemory : MemoryStore → α) (store : ShelfStore) :
    (operate (fun store => store.call kind name fun entries => (read entries, entries))
      (fun store => (readMemory store, store)) store).2.unlogged = store.unlogged := by
  cases store with
  | map store =>
    simp only [operate, MapStore.call]
    cases (store.failures.find? kind).or store.failure <;> rfl
  | memory store => rfl

end ShelfStore

namespace Shelf

def unlogged (shelf : Shelf) : Shelf := shelf.map ShelfStore.unlogged

theorem held_unlogged (shelf : Shelf) : shelf.unlogged.held = shelf.held := by
  funext place name
  simp only [held, unlogged, List.getElem?_map]
  cases shelf[place]? with
  | none => rfl
  | some store => exact congrFun store.texts_unlogged name

private theorem runOn_operateAt_unlogged {operation : ShelfStore → Except Error α × ShelfStore}
    (h : ShelfStore.Overlooks operation) (place : Nat) (shelf : Shelf) :
    ((operateAt place operation).runOn shelf.unlogged).1 =
        ((operateAt place operation).runOn shelf).1 ∧
      ((operateAt place operation).runOn shelf.unlogged).2.unlogged =
        ((operateAt place operation).runOn shelf).2.unlogged := by
  have hat : shelf.unlogged[place]? = shelf[place]?.map ShelfStore.unlogged :=
    List.getElem?_map
  simp only [operateAt, Action.runOn_ofFunction, hat]
  cases shelf[place]? with
  | none =>
    refine ⟨rfl, ?_⟩
    simp only [Option.map_none, unlogged, List.map_map]
    refine List.map_congr_left fun store _ => ?_
    cases store <;> rfl
  | some store =>
    obtain ⟨hanswer, hafter⟩ := h store
    refine ⟨hanswer, ?_⟩
    simp only [Option.map_some, unlogged, List.map_set, List.map_map, hafter]
    congr 1
    refine List.map_congr_left fun store _ => ?_
    cases store <;> rfl

theorem dependsOn_operateAt {operation : ShelfStore → Except Error α × ShelfStore}
    (h : ShelfStore.Overlooks operation) (place : Nat) :
    (operateAt place operation).DependsOn unlogged := by
  intro shelf other hs
  have hshelf := runOn_operateAt_unlogged h place shelf
  have hother := runOn_operateAt_unlogged h place other
  rw [← hs] at hother
  exact ⟨hshelf.1.symm.trans hother.1, hshelf.2.symm.trans hother.2⟩

theorem unlogged_operateAt {operation : ShelfStore → Except Error α × ShelfStore}
    (h : ∀ store, (operation store).2.unlogged = store.unlogged) (place : Nat) (shelf : Shelf) :
    ((operateAt place operation).runOn shelf).2.unlogged = shelf.unlogged := by
  simp only [operateAt, Action.runOn_ofFunction]
  cases hp : shelf[place]? with
  | none => rfl
  | some store =>
    simp only [unlogged, List.map_set, h store]
    obtain ⟨hlt, rfl⟩ := List.getElem?_eq_some_iff.mp hp
    rw [← List.map_set, List.set_getElem_self]

theorem stores_dependOn : Shelf.stores.DependOn unlogged where
  get place name := dependsOn_operateAt (ShelfStore.overlooks_operate .get name _ _) place
  put place name _ := dependsOn_operateAt (ShelfStore.overlooks_operate .put name _ _) place
  remove place name := dependsOn_operateAt (ShelfStore.overlooks_operate .remove name _ _) place
  clear place := dependsOn_operateAt (ShelfStore.overlooks_operate .clear "" _ _) place
  unchanged place name :=
    unlogged_operateAt (ShelfStore.unlogged_operate .get name (fun entries => entries.find? name)
      fun store => store.get name) place

end Shelf
end ResultCache
