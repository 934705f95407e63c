import ResultCache.Key
import ResultCache.NamedCache
import ResultCache.Store

/-!
# Staged views

What one transaction has staged against one named cache: whether the cache is to be cleared, which
entries are to be written, and which are to be removed. Nothing reaches the shared store before
the view is committed.
-/

namespace ResultCache

/-- The staged state of one named cache. -/
structure View (σ : Type) where
  cache : NamedCache σ
  /-- Whether the shared store is to be cleared first. -/
  cleared : Bool
  writes : Table Key String
  removals : Table Key Unit

namespace View

variable {σ ω : Type}

def fresh (cache : NamedCache σ) : View σ := ⟨cache, false, Table.empty, Table.empty⟩

/-- The view without anything staged. -/
def reset (view : View σ) : View σ := fresh view.cache

/-- Stages a write, which cancels a staged removal. -/
def put (view : View σ) (key : Key) (text : String) : View σ :=
  { view with writes := view.writes.set key text, removals := view.removals.erase key }

/-- Stages a removal, which cancels a staged write. -/
def remove (view : View σ) (key : Key) : View σ :=
  { view with writes := view.writes.erase key, removals := view.removals.set key () }

/-- Stages a clear and drops everything staged so far. -/
def clear (view : View σ) : View σ :=
  { view with cleared := true, writes := Table.empty, removals := Table.empty }

/-- Whether two views of a cache stage the same, each in an order of its own. -/
structure SameStaged (view other : View σ) : Prop where
  cache : view.cache = other.cache
  cleared : view.cleared = other.cleared
  writes : view.writes.entries.Perm other.writes.entries
  removals : view.removals.entries.Perm other.removals.entries

theorem SameStaged.refl (view : View σ) : view.SameStaged view := ⟨rfl, rfl, .refl _, .refl _⟩

/-- What the transaction sees under a key: nothing once the cache is to be cleared or the key is to
be removed, else the staged text, else what the shared store keeps. -/
def get (stores : Stores σ ω) (view : View σ) (key : Key) : Action ω (Option String) :=
  if view.cleared || view.removals.contains key then pure none
  else
    match view.writes.find? key with
    | some text => pure (some text)
    | none => stores.get view.cache.store key.storageKey

theorem get_fresh (stores : Stores σ ω) (cache : NamedCache σ) (key : Key) :
    (fresh cache).get stores key = stores.get cache.store key.storageKey := rfl

/-- Carries changes to a store: the clear, then the removals, then the writes, each in the given
order and up to the first call that fails. -/
def publishInOrder (stores : Stores σ ω) (store : σ) (cleared : Bool) (removals : List Key)
    (writes : List (Key × String)) : Action ω Unit := do
  if cleared then stores.clear store
  removals.forM fun key => discard (stores.remove store key.storageKey)
  writes.forM fun (key, text) => stores.put store key.storageKey text

/-- Carries the staged state to the shared store, in the order in which it was staged. -/
def publish (stores : Stores σ ω) (view : View σ) : Action ω Unit :=
  publishInOrder stores view.cache.store view.cleared view.removals.keys view.writes.entries

/-- Publishes the staged state. Nothing stays staged, whether or not every call succeeded. -/
def commit (stores : Stores σ ω) : Action (View σ × ω) Unit :=
  Action.ofFunction fun (view, world) =>
    match (view.publish stores).runOn world with
    | (result, world) => (result, (view.reset, world))

/-- Drops the staged state; the shared store is not touched. -/
def rollback (view : View σ) : View σ := view.reset

theorem cache_put (view : View σ) (key : Key) (text : String) :
    (view.put key text).cache = view.cache := rfl

theorem cache_remove (view : View σ) (key : Key) : (view.remove key).cache = view.cache := rfl

theorem cache_clear (view : View σ) : view.clear.cache = view.cache := rfl

end View
end ResultCache
