import ResultCache.Table

/-!
# Stores in memory

A store of this process: a map from names to texts with a capacity and two lifetimes. A capacity of
zero keeps nothing; which entries a full store drops, and when lifetimes end, is not described.
-/

namespace ResultCache

/-- How a store in memory is set up. Lifetimes are in seconds. -/
structure MemorySettings where
  maxCapacity : UInt64 := 10000
  defaultTtl : UInt64 := 3600
  timeToIdle : Option UInt64 := none
  deriving DecidableEq, Repr

/-- The longest lifetime that a store in memory supports: a thousand years of 365 days. -/
def MemorySettings.longestLifetime : UInt64 := 31536000000

/-- Whether a store can be built: both lifetimes are supported. -/
def MemorySettings.buildable (settings : MemorySettings) : Bool :=
  settings.defaultTtl ≤ MemorySettings.longestLifetime &&
    settings.timeToIdle.all (· ≤ MemorySettings.longestLifetime)

/-- A store in memory and what it keeps. -/
structure MemoryStore where
  settings : MemorySettings
  entries : Table String String

namespace MemoryStore

def new (settings : MemorySettings) : MemoryStore := ⟨settings, Table.empty⟩

def get (store : MemoryStore) (name : String) : Option String := store.entries.find? name

def put (store : MemoryStore) (name text : String) : MemoryStore :=
  if store.settings.maxCapacity = 0 then store
  else { store with entries := store.entries.set name text }

def remove (store : MemoryStore) (name : String) : MemoryStore :=
  { store with entries := store.entries.erase name }

def clear (store : MemoryStore) : MemoryStore := { store with entries := Table.empty }

def size (store : MemoryStore) : Nat := store.entries.size

theorem get_put (store : MemoryStore) (name other text : String)
    (h : store.settings.maxCapacity ≠ 0) :
    (store.put name text).get other = if other = name then some text else store.get other := by
  simp [put, get, h]

@[simp] theorem get_remove (store : MemoryStore) (name other : String) :
    (store.remove name).get other = if other = name then none else store.get other := by
  simp [remove, get]

end MemoryStore
end ResultCache
