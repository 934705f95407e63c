/-!
# Settings

What a process is configured with: its log, the shared stores, the environment, and the named
caches to set up at the start.
-/

namespace ResultCache

inductive LogFormat where
  | pretty
  | json
  deriving DecidableEq, Repr

structure LogSettings where
  level : String := "info"
  format : LogFormat := .pretty
  deriving DecidableEq, Repr

/-- How every shared store is set up. Lifetimes are in seconds. -/
structure CacheSettings where
  backend : String := "in_memory"
  redisUrl : Option String := none
  keyPrefix : Option String := none
  defaultTtl : UInt64 := 3600
  maxCapacity : Option UInt64 := some 10000
  timeToIdle : Option UInt64 := none
  deriving DecidableEq, Repr

structure Settings where
  log : LogSettings := {}
  cache : CacheSettings := {}
  /-- Tells the keys of one database environment from those of others. -/
  environment : Option String := none
  namespaces : List String := []
  deriving DecidableEq, Repr

end ResultCache
