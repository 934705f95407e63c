import ResultCache.Chunks
import ResultCache.Store

/-!
# Stores on a Redis server

A handle keeps its entries under keys that begin with a prefix and a namespace, joined by colons.
Clearing and counting see the keys of the handle alone; a handle without prefix and namespace owns
the whole database.
-/

namespace ResultCache.Redis

/-- A server, reached over one connection in a world `ν`. -/
structure Server (ν : Type) where
  /-- Sends the words of a command and answers its reply. -/
  call : List String → ν → Except CallFault Reply × ν
  /-- How many pages of keys a scan asks for at most. -/
  patience : Nat

inductive ConnectFault where
  | timedOut
  | refused (reason : String)
  deriving DecidableEq, Repr

/-- A network in a world `ν`, with a server once the connection is made. -/
structure Network (ν : Type) where
  /-- Connects to an address within a number of milliseconds. -/
  connect : Address → (timeout : UInt64) → ν → Except ConnectFault Unit × ν
  server : Server ν

/-- The network on which no server ever answers. -/
def Network.silent : Network Unit where
  connect _ _ world := (.error .timedOut, world)
  server := ⟨fun _ world => (.error (.disconnected "no server answers"), world), 0⟩

/-- What a connection is set up with. The lifetime of entries is in seconds. -/
structure Settings where
  url : String := "redis://127.0.0.1:6379"
  defaultTtl : UInt64 := 3600
  keyPrefix : Option String := none
  timeout : UInt64 := 5000
  deriving DecidableEq, Repr

/-- A handle: what its keys begin with, and how long its entries live. -/
structure Scope where
  keyPrefix : Option String
  space : Option String
  ttl : UInt64
  deriving DecidableEq, Repr

variable {ν α : Type}

/-- Connects, and answers the handle without a namespace. -/
def connect (network : Network ν) (settings : Settings) : Action ν Scope :=
  Action.ofFunction fun world =>
    match Address.parse settings.url with
    | .error fault => (.error (.cache (.redisAddress fault)), world)
    | .ok address =>
      match network.connect address settings.timeout world with
      | (.ok (), world) => (.ok ⟨settings.keyPrefix, none, settings.defaultTtl⟩, world)
      | (.error .timedOut, world) => (.error (.cache (.redisTimeout settings.url)), world)
      | (.error (.refused reason), world) => (.error (.cache (.redisConnect reason)), world)

namespace Scope

/-- The handle of a namespace over the same connection. -/
def namespaced (scope : Scope) (space : String) : Scope := { scope with space := some space }

def keyOf (scope : Scope) (name : String) : String :=
  String.intercalate ":" (scope.keyPrefix.toList ++ scope.space.toList ++ [name])

/-- Whether other handles may share the database. -/
def isScoped (scope : Scope) : Bool := scope.keyPrefix.isSome || scope.space.isSome

/-- Sends a command and reads its reply. -/
def ask (server : Server ν) (words : List String) (read : Reply → Except CallFault α)
    (failure : CallFault → CacheFault) : Action ν α :=
  Action.ofFunction fun world =>
    match server.call words world with
    | (.error fault, world) => (.error (.cache (failure fault)), world)
    | (.ok reply, world) => ((read reply).mapError fun fault => .cache (failure fault), world)

/-- Collects pages of keys from a cursor on, until the server answers the cursor zero. -/
def scanPages (server : Server ν) (pattern : String) : Nat → UInt64 → Action ν (List String)
  | 0, _ => Action.ofResult
      (.error (.cache (.redisScan pattern (.disconnected "the scan does not end"))))
  | n + 1, cursor => do
    let (next, keys) ← ask server
      ["SCAN", toString cursor.toNat, "MATCH", pattern, "COUNT", "1000"] Reply.page
      (.redisScan pattern)
    if next = 0 then pure keys
    else
      let more ← scanPages server pattern n next
      pure (keys ++ more)

def scan (server : Server ν) (scope : Scope) : Action ν (List String) :=
  scanPages server (scope.keyOf "*") server.patience 0

def get (server : Server ν) (scope : Scope) (name : String) : Action ν (Option String) :=
  ask server ["GET", scope.keyOf name] Reply.text? (.redisGet name)

/-- Keeps a text for the lifetime of the handle's entries, at least a second. -/
def put (server : Server ν) (scope : Scope) (name text : String) : Action ν Unit :=
  ask server ["SETEX", scope.keyOf name, toString (max scope.ttl 1).toNat, text] Reply.ignored
    (.redisPut name)

def remove (server : Server ν) (scope : Scope) (name : String) : Action ν Bool :=
  ask server ["DEL", scope.keyOf name] (fun reply => reply.int32.map (0 < ·)) (.redisRemove name)

def contains (server : Server ν) (scope : Scope) (name : String) : Action ν Bool :=
  ask server ["EXISTS", scope.keyOf name] Reply.bool (.redisExists name)

/-- Drops the entries of the handle, in commands of at most five hundred keys. -/
def clear (server : Server ν) (scope : Scope) : Action ν Unit :=
  if scope.isScoped then do
    let keys ← scan server scope
    (chunks 500 keys).forM fun keys =>
      discard (ask server ("DEL" :: keys) Reply.int64 .redisDelete)
  else ask server ["FLUSHDB"] Reply.ignored .redisFlush

def size (server : Server ν) (scope : Scope) : Action ν Nat :=
  if scope.isScoped then List.length <$> scan server scope
  else ask server ["DBSIZE"] (fun reply => reply.uint64.map UInt64.toNat) .redisSize

end Scope

def stores (server : Server ν) : Stores Scope ν where
  get := Scope.get server
  put := Scope.put server
  remove := Scope.remove server
  contains := Scope.contains server
  clear := Scope.clear server
  size := Scope.size server

end ResultCache.Redis
