import ResultCache.Backend
import ResultCache.Text.Blank

/-!
# The registry of named caches

The named caches of a process by namespace. Namespaces are checked before any store is built, since
they become parts of key patterns.
-/

namespace ResultCache

/-- Named caches by id, in ascending order of the ids. -/
structure Registry (σ : Type) where
  caches : Dictionary (NamedCache σ)

namespace Registry

variable {σ ω ν : Type}

/-- Whether a character has a meaning of its own in key patterns. -/
def isGlobChar (c : Char) : Bool := c = '*' || c = '?' || c = '[' || c = ']' || c = '\\'

/-- Checks namespaces in order, given those before them: none may be blank, hold a pattern
character, or repeat an earlier one. -/
def checkNames (seen : List String) : List String → Except ValidationFault Unit
  | [] => .ok ()
  | name :: rest =>
    if Text.blank name then .error .blankNamespace
    else if name.toList.any isGlobChar then .error (.globNamespace name)
    else if seen.contains name then .error (.duplicateNamespace name)
    else checkNames (name :: seen) rest

def validate (names : List String) : Except Error Unit :=
  (checkNames [] names).mapError .validation

/-- The registry of a list of caches; of two with one id the later counts. -/
def ofCaches (caches : List (NamedCache σ)) : Registry σ :=
  ⟨Dictionary.ofList (caches.map fun cache => (cache.id, cache))⟩

def get? (registry : Registry σ) (name : String) : Option (NamedCache σ) :=
  registry.caches.find? name

/-- The cache of a namespace, which must be registered. -/
def require (registry : Registry σ) (name : String) : Except Error (NamedCache σ) :=
  match registry.get? name with
  | some cache => .ok cache
  | none => .error (.configuration (.unknownNamespace name))

def toList (registry : Registry σ) : List (NamedCache σ) := registry.caches.values

def size (registry : Registry σ) : Nat := registry.caches.size

def isEmpty (registry : Registry σ) : Bool := registry.caches.isEmpty

/-- Builds every namespace that the settings name. -/
def ofSettings (network : Redis.Network ν) (settings : Settings) (host : Host ν) :
    Except BuildFailure (Registry Handle) × Host ν :=
  match validate settings.namespaces with
  | .error e => (.error (.error e), host)
  | .ok () =>
    match BackendConfig.ofSettings settings.cache with
    | .error e => (.error (.error e), host)
    | .ok config =>
      match config.createNamed network settings.namespaces host with
      | (caches, host) => (caches.map ofCaches, host)

/-- Empties the cache of a namespace and answers how many entries it kept. -/
def flush (stores : Stores σ ω) (registry : Registry σ) (name : String) : Action ω Nat := do
  let cache ← Action.ofResult (registry.require name)
  let entries ← stores.size cache.store
  stores.clear cache.store
  pure entries

/-- How many entries every cache keeps, in ascending order of the ids. -/
def sizes (stores : Stores σ ω) (registry : Registry σ) : Action ω (List (String × Nat)) :=
  registry.toList.mapM fun cache => do pure (cache.id, ← stores.size cache.store)

end Registry
end ResultCache
