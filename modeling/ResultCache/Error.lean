import ResultCache.Json.Fault
import ResultCache.Parameters
import ResultCache.Redis.Address
import ResultCache.Redis.Reply

/-!
# Errors

Every failure of a cache, a statement or a configuration, by kind and cause. The wording is in
one place: `Error.message` is the text of an error, which begins with its kind. Each kind also has
a cause in words, for what an engine or a store reports on its own account.
-/

namespace ResultCache

inductive ConfigurationFault where
  | unknownBackend (name : String)
  | missingRedisUrl
  | unknownNamespace (name : String)
  /-- A stored procedure that writes to its parameters may not be cached. -/
  | cachedOutput (statement : String)
  | reported (text : String)
  deriving DecidableEq, Repr

/-- What a store or the form of its entries got wrong. -/
inductive CacheFault where
  /-- A map with keys that are not texts has no stored form. -/
  | unwritable
  | unreadable (fault : Json.Fault)
  | redisAddress (fault : Redis.AddressFault)
  | redisTimeout (url : String)
  | redisConnect (reason : String)
  | redisGet (key : String) (fault : Redis.CallFault)
  | redisPut (key : String) (fault : Redis.CallFault)
  | redisRemove (key : String) (fault : Redis.CallFault)
  | redisExists (key : String) (fault : Redis.CallFault)
  | redisScan (pattern : String) (fault : Redis.CallFault)
  | redisDelete (fault : Redis.CallFault)
  | redisFlush (fault : Redis.CallFault)
  | redisSize (fault : Redis.CallFault)
  | reported (text : String)
  deriving DecidableEq, Repr

inductive KeyFault where
  | path (fault : PathFault)
  /-- A path that the statement's key needs. -/
  | statement (id : String) (fault : PathFault)
  | reported (text : String)
  deriving DecidableEq, Repr

inductive ValidationFault where
  | blankNamespace
  | globNamespace (name : String)
  | duplicateNamespace (name : String)
  | reported (text : String)
  deriving DecidableEq, Repr

inductive Error where
  | configuration (fault : ConfigurationFault)
  | cache (fault : CacheFault)
  | key (fault : KeyFault)
  | execution (statement text : String)
  /-- The session or its engine is closed. -/
  | closed
  | validation (fault : ValidationFault)
  | internal (text : String)
  deriving DecidableEq, Repr

namespace ConfigurationFault

def message : ConfigurationFault → String
  | .unknownBackend name =>
    "Unknown cache type: " ++ name ++ ". Valid types: in_memory, redis"
  | .missingRedisUrl => "Redis URL is required for Redis cache type"
  | .unknownNamespace name => "Unknown cache namespace: " ++ name
  | .cachedOutput statement =>
    "Caching stored procedures with OUT params is not supported. " ++
      "Please configure use_cache = false in '" ++ statement ++ "'"
  | .reported text => text

end ConfigurationFault

namespace CacheFault

private def aboutKey (what key : String) (fault : Redis.CallFault) : String :=
  "Failed to " ++ what ++ " key '" ++ key ++ "': " ++ fault.message

def message : CacheFault → String
  | .unwritable => "Failed to serialize cache value: key must be a string"
  | .unreadable fault => "Failed to deserialize cache value: " ++ fault.message
  | .redisAddress fault => "Failed to create Redis client: " ++ fault.message
  | .redisTimeout url => "Timed out connecting to Redis at " ++ url
  | .redisConnect reason => "Failed to connect to Redis: " ++ reason
  | .redisGet key fault => aboutKey "get" key fault
  | .redisPut key fault => aboutKey "set" key fault
  | .redisRemove key fault => aboutKey "delete" key fault
  | .redisExists key fault => aboutKey "check existence of" key fault
  | .redisScan pattern fault =>
    "Failed to scan keys with pattern '" ++ pattern ++ "': " ++ fault.message
  | .redisDelete fault => "Failed to delete keys: " ++ fault.message
  | .redisFlush fault => "Failed to flush database: " ++ fault.message
  | .redisSize fault => "Failed to get database size: " ++ fault.message
  | .reported text => text

end CacheFault

namespace KeyFault

def message : KeyFault → String
  | .path fault => fault.message
  | .statement id fault =>
    "Cannot build cache key for '" ++ id ++ "': Cache key error: " ++ fault.message
  | .reported text => text

end KeyFault

namespace ValidationFault

def message : ValidationFault → String
  | .blankNamespace => "Cache namespace must not be empty"
  | .globNamespace name => "Cache namespace must not contain glob characters: " ++ name
  | .duplicateNamespace name => "Duplicate cache namespace: " ++ name
  | .reported text => text

end ValidationFault

namespace Error

def message : Error → String
  | .configuration fault => "Configuration error: " ++ fault.message
  | .cache fault => "Cache error: " ++ fault.message
  | .key fault => "Cache key error: " ++ fault.message
  | .execution statement text => "Execution error in '" ++ statement ++ "': " ++ text
  | .closed => "Executor closed"
  | .validation fault => "Validation error: " ++ fault.message
  | .internal text => "Internal error: " ++ text

end Error
end ResultCache
