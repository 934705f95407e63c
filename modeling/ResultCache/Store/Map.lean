import ResultCache.Error
import ResultCache.Table

/-!
# Map stores that can be made to fail

A plain map from names to texts. Which kinds of call fail, and with what words, is part of the
store, and every call is recorded, failing or not.
-/

namespace ResultCache

/-- What a call asks of a store. Asking whether a name is taken is a `get`. -/
inductive CallKind where
  | get
  | put
  | remove
  | clear
  | size
  deriving DecidableEq, Repr

/-- A call and the name it is about; the name is empty for calls about the whole store. -/
structure Call where
  kind : CallKind
  name : String
  deriving DecidableEq, Repr

structure MapStore where
  entries : Table String String
  /-- The words with which calls of a kind fail. -/
  failures : Table CallKind String
  /-- The words with which all other calls fail. -/
  failure : Option String
  /-- The calls so far, the latest last. -/
  calls : List Call

namespace MapStore

/-- A healthy store that keeps the given texts. -/
def new (entries : Table String String) : MapStore := ⟨entries, Table.empty, none, []⟩

/-- Records a call, and carries it out unless calls of its kind fail. -/
def call {α : Type} (store : MapStore) (kind : CallKind) (name : String)
    (effect : Table String String → α × Table String String) : Except Error α × MapStore :=
  let store := { store with calls := store.calls ++ [⟨kind, name⟩] }
  match (store.failures.find? kind).or store.failure with
  | some words => (.error (.cache (.reported words)), store)
  | none =>
    match effect store.entries with
    | (answer, entries) => (.ok answer, { store with entries })

def get (name : String) (store : MapStore) : Except Error (Option String) × MapStore :=
  store.call .get name fun entries => (entries.find? name, entries)

def put (name text : String) (store : MapStore) : Except Error Unit × MapStore :=
  store.call .put name fun entries => ((), entries.set name text)

def remove (name : String) (store : MapStore) : Except Error Bool × MapStore :=
  store.call .remove name fun entries => (entries.contains name, entries.erase name)

def contains (name : String) (store : MapStore) : Except Error Bool × MapStore :=
  store.call .get name fun entries => (entries.contains name, entries)

def clear (store : MapStore) : Except Error Unit × MapStore :=
  store.call .clear "" fun _ => ((), Table.empty)

def size (store : MapStore) : Except Error Nat × MapStore :=
  store.call .size "" fun entries => (entries.size, entries)

end MapStore
end ResultCache
