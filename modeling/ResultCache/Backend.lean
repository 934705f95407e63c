import ResultCache.Config.Settings
import ResultCache.NamedCache
import ResultCache.Redis.Store
import ResultCache.Store.Shelf
import ResultCache.Text.Lower

/-!
# Backends

Which kind of store stands behind the named caches, how it is set up, and the stores themselves.
In memory every namespace has a store of its own; on Redis all namespaces share one connection.
-/

namespace ResultCache

inductive BackendType where
  | inMemory
  | redis
  deriving DecidableEq, Repr

namespace BackendType

def default : BackendType := .inMemory

def name : BackendType → String
  | .inMemory => "in_memory"
  | .redis => "redis"

/-- Reads a name in any case. -/
def parse (text : String) : Except Error BackendType :=
  let lower := Text.lower text
  if lower = "in_memory" || lower = "inmemory" || lower = "memory" then .ok .inMemory
  else if lower = "redis" then .ok .redis
  else .error (.configuration (.unknownBackend text))

end BackendType

/-- How the stores behind named caches are set up. Lifetimes are in seconds. -/
structure BackendConfig where
  type : BackendType := .inMemory
  redisUrl : Option String := none
  keyPrefix : Option String := none
  defaultTtl : UInt64 := 3600
  maxCapacity : Option UInt64 := some 10000
  timeToIdle : Option UInt64 := none
  deriving DecidableEq, Repr

inductive BuildFailure where
  | error (e : Error)
  /-- A lifetime is longer than a store in memory supports, which ends the process. -/
  | aborted
  deriving DecidableEq, Repr

/-- A store of this process or a handle on a server. -/
inductive Handle where
  | shelf (place : Nat)
  | redis (scope : Redis.Scope)
  deriving DecidableEq, Repr

/-- The world that stores of either kind live in. -/
structure Host (ν : Type) where
  shelf : Shelf
  network : ν

namespace Host

variable {ν α : Type}

private def onShelf (action : Action Shelf α) : Action (Host ν) α :=
  action.within Host.shelf fun shelf host => { host with shelf }

private def onNetwork (action : Action ν α) : Action (Host ν) α :=
  action.within Host.network fun network host => { host with network }

/-- The stores of a host by handle. -/
def stores (server : Redis.Server ν) : Stores Handle (Host ν) where
  get
    | .shelf place, name => onShelf (Shelf.stores.get place name)
    | .redis scope, name => onNetwork ((Redis.stores server).get scope name)
  put
    | .shelf place, name, text => onShelf (Shelf.stores.put place name text)
    | .redis scope, name, text => onNetwork ((Redis.stores server).put scope name text)
  remove
    | .shelf place, name => onShelf (Shelf.stores.remove place name)
    | .redis scope, name => onNetwork ((Redis.stores server).remove scope name)
  contains
    | .shelf place, name => onShelf (Shelf.stores.contains place name)
    | .redis scope, name => onNetwork ((Redis.stores server).contains scope name)
  clear
    | .shelf place => onShelf (Shelf.stores.clear place)
    | .redis scope => onNetwork ((Redis.stores server).clear scope)
  size
    | .shelf place => onShelf (Shelf.stores.size place)
    | .redis scope => onNetwork ((Redis.stores server).size scope)

end Host

namespace BackendConfig

variable {ν : Type}

def ofSettings (settings : CacheSettings) : Except Error BackendConfig := do
  pure {
    type := ← BackendType.parse settings.backend
    redisUrl := settings.redisUrl
    keyPrefix := settings.keyPrefix
    defaultTtl := settings.defaultTtl
    maxCapacity := settings.maxCapacity
    timeToIdle := settings.timeToIdle }

def ofRedis (url : String) : BackendConfig := { type := .redis, redisUrl := some url }

def memorySettings (config : BackendConfig) : MemorySettings where
  maxCapacity := config.maxCapacity.getD 10000
  defaultTtl := config.defaultTtl
  timeToIdle := config.timeToIdle

def redisSettings (config : BackendConfig) : Except Error Redis.Settings :=
  match config.redisUrl with
  | none => .error (.configuration .missingRedisUrl)
  | some url => .ok { url, defaultTtl := config.defaultTtl, keyPrefix := config.keyPrefix }

/-- Puts up a store in memory for every namespace, in order. -/
def createMemory (settings : MemorySettings) :
    List String → Shelf → Except BuildFailure (List (NamedCache Handle)) × Shelf
  | [], shelf => (.ok [], shelf)
  | name :: names, shelf =>
    if settings.buildable then
      match shelf.putUp (.memory (MemoryStore.new settings)) with
      | (place, shelf) =>
        match createMemory settings names shelf with
        | (caches, shelf) => (caches.map (⟨name, .shelf place⟩ :: ·), shelf)
    else (.error .aborted, shelf)

def createNamed (network : Redis.Network ν) (config : BackendConfig) (names : List String)
    (host : Host ν) : Except BuildFailure (List (NamedCache Handle)) × Host ν :=
  match config.type with
  | .inMemory =>
    match createMemory config.memorySettings names host.shelf with
    | (caches, shelf) => (caches, { host with shelf })
  | .redis =>
    match config.redisSettings with
    | .error e => (.error (.error e), host)
    | .ok settings =>
      match (Redis.connect network settings).runOn host.network with
      | (.error e, network) => (.error (.error e), { host with network })
      | (.ok scope, network) =>
        (.ok (names.map fun name => ⟨name, .redis (scope.namespaced name)⟩), { host with network })

end BackendConfig
end ResultCache
