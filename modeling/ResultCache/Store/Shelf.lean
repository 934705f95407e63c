import ResultCache.Store
import ResultCache.Store.Map
import ResultCache.Store.Memory

/-!
# Shelves

The stores of one process stand on a shelf, and the place of a store is its handle.
-/

namespace ResultCache

/-- A store of this process. -/
inductive ShelfStore where
  | map (store : MapStore)
  | memory (store : MemoryStore)

namespace ShelfStore

variable {α : Type}

/-- An operation on a store of either kind; stores in memory never fail. -/
def operate (onMap : MapStore → Except Error α × MapStore)
    (onMemory : MemoryStore → α × MemoryStore) : ShelfStore → Except Error α × ShelfStore
  | .map store =>
    match onMap store with
    | (result, store) => (result, .map store)
  | .memory store =>
    match onMemory store with
    | (answer, store) => (.ok answer, .memory store)

end ShelfStore

/-- The stores of a process in the order in which they were put up. -/
abbrev Shelf := List ShelfStore

namespace Shelf

variable {α : Type}

def operateAt (place : Nat) (operation : ShelfStore → Except Error α × ShelfStore) :
    Action Shelf α :=
  Action.ofFunction fun shelf =>
    match shelf[place]? with
    | none => (.error (.internal "no store stands at this place"), shelf)
    | some store =>
      match operation store with
      | (result, store) => (result, shelf.set place store)

def stores : Stores Nat Shelf where
  get place name := Shelf.operateAt place <|
    ShelfStore.operate (MapStore.get name) fun store => (store.get name, store)
  put place name text := Shelf.operateAt place <|
    ShelfStore.operate (MapStore.put name text) fun store => ((), store.put name text)
  remove place name := Shelf.operateAt place <|
    ShelfStore.operate (MapStore.remove name) fun store =>
      ((store.get name).isSome, store.remove name)
  contains place name := Shelf.operateAt place <|
    ShelfStore.operate (MapStore.contains name) fun store => ((store.get name).isSome, store)
  clear place := Shelf.operateAt place <|
    ShelfStore.operate MapStore.clear fun store => ((), store.clear)
  size place := Shelf.operateAt place <|
    ShelfStore.operate MapStore.size fun store => (store.size, store)

/-- Puts up a store and answers its place. -/
def putUp (shelf : Shelf) (store : ShelfStore) : Nat × Shelf := (shelf.length, shelf ++ [store])

end Shelf
end ResultCache
