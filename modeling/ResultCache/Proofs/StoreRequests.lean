import Mathlib.Logic.Function.Basic
import ResultCache.Store
import ResultCache.Table

/-! # Requests to stores -/

namespace ResultCache

inductive StoreRequest where
  | get (name : String)
  | put (name text : String)
  | remove (name : String)
  | contains (name : String)
  | clear
  | size
  deriving DecidableEq, Repr

inductive StoreAnswer where
  | text (found : Option String)
  | done
  | flag (flag : Bool)
  | count (entries : Nat)
  deriving DecidableEq, Repr

variable {σ ω ω' κ : Type}

/-- Stores on which every call is carried out in a changed way. -/
def Stores.changed (change : ∀ {α : Type}, σ → StoreRequest → Action ω α → Action ω' α)
    (stores : Stores σ ω) : Stores σ ω' where
  get store name := change store (.get name) (stores.get store name)
  put store name text := change store (.put name text) (stores.put store name text)
  remove store name := change store (.remove name) (stores.remove store name)
  contains store name := change store (.contains name) (stores.contains store name)
  clear store := change store .clear (stores.clear store)
  size store := change store .size (stores.size store)

namespace StoreRequest

def perform (stores : Stores σ ω) (store : σ) : StoreRequest → Action ω StoreAnswer
  | get name => .text <$> stores.get store name
  | put name text => (fun _ => .done) <$> stores.put store name text
  | remove name => .flag <$> stores.remove store name
  | contains name => .flag <$> stores.contains store name
  | clear => (fun _ => .done) <$> stores.clear store
  | size => .count <$> stores.size store

theorem perform_changed {change : ∀ {α : Type}, σ → StoreRequest → Action ω α → Action ω' α}
    (map_change : ∀ {α β : Type} (f : α → β) (store : σ) (call : StoreRequest)
      (action : Action ω α), f <$> change store call action = change store call (f <$> action))
    (stores : Stores σ ω) (store : σ) (call : StoreRequest) :
    call.perform (stores.changed change) store = change store call (call.perform stores store) := by
  cases call <;> exact map_change _ _ _ _

/-- Carries out requests one after the other, also after one has failed. -/
def performAll (stores : Stores σ ω) :
    List (σ × StoreRequest) → ω → List (Except Error StoreAnswer) × ω
  | [], world => ([], world)
  | (store, request) :: rest, world =>
    match (request.perform stores store).runOn world with
    | (answer, world) =>
      match performAll stores rest world with
      | (answers, world) => (answer :: answers, world)

/-- What a map answers, and what it keeps afterwards. -/
def onTable : StoreRequest → Table String String → StoreAnswer × Table String String
  | get name, table => (.text (table.find? name), table)
  | put name text, table => (.done, table.set name text)
  | remove name, table => (.flag (table.contains name), table.erase name)
  | contains name, table => (.flag (table.contains name), table)
  | clear, _ => (.done, Table.empty)
  | size, table => (.count table.size, table)

/-- What separate maps answer to requests, and what they keep afterwards. -/
def onTables [DecidableEq κ] : List (κ × StoreRequest) → (κ → Table String String) →
    List StoreAnswer × (κ → Table String String)
  | [], tables => ([], tables)
  | (place, request) :: rest, tables =>
    match request.onTable (tables place) with
    | (answer, table) =>
      match onTables rest (Function.update tables place table) with
      | (answers, tables) => (answer :: answers, tables)

end StoreRequest
end ResultCache
