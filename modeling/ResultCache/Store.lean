import ResultCache.Error
import ResultCache.Json.Decode

/-!
# Shared stores

A store keeps texts under names. Stores are reached through handles and act on a world that holds
them all, so that a store may fail, may be shared, and may be watched.
-/

namespace ResultCache

/-- A step that may fail and that changes a world of type `ω` whether it fails or not. -/
abbrev Action (ω : Type) := ExceptT Error (StateM ω)

namespace Action

variable {ω ω' α : Type}

/-- Runs a step on a world. -/
def runOn (action : Action ω α) (world : ω) : Except Error α × ω := action.run.run world

def ofFunction (f : ω → Except Error α × ω) : Action ω α := f

/-- A result that leaves the world alone. -/
def ofResult (result : Except Error α) : Action ω α := ofFunction fun world => (result, world)

/-- A step on a part of a larger world. -/
def within (part : ω' → ω) (replace : ω → ω' → ω') (action : Action ω α) : Action ω' α :=
  ofFunction fun world =>
    match action.runOn (part world) with
    | (result, changed) => (result, replace changed world)

@[simp] theorem runOn_ofFunction (f : ω → Except Error α × ω) (world : ω) :
    (ofFunction f).runOn world = f world := rfl

@[simp] theorem runOn_ofResult (result : Except Error α) (world : ω) :
    (ofResult result).runOn world = (result, world) := rfl

@[simp] theorem runOn_pure (x : α) (world : ω) :
    (pure x : Action ω α).runOn world = (.ok x, world) := rfl

theorem runOn_bind {β : Type} (action : Action ω α) (next : α → Action ω β) (world : ω) :
    (action >>= next).runOn world =
      match action.runOn world with
      | (.ok x, world) => (next x).runOn world
      | (.error e, world) => (.error e, world) := by
  change (ExceptT.bindCont next (action.run.run world).1).run (action.run.run world).2 = _
  rw [show action.runOn world = action.run.run world from rfl]
  rcases action.run.run world with ⟨_ | _, _⟩ <;> rfl

theorem runOn_map {β : Type} (f : α → β) (action : Action ω α) (world : ω) :
    (f <$> action).runOn world = ((action.runOn world).1.map f, (action.runOn world).2) := by
  rw [← bind_pure_comp, runOn_bind]
  rcases action.runOn world with ⟨_ | _, _⟩ <;> rfl

end Action

/-- The operations of the stores with handles in `σ` that live in a world `ω`. -/
structure Stores (σ ω : Type) where
  get : σ → String → Action ω (Option String)
  /-- Keeps a text under a name, in place of any earlier one. -/
  put : σ → String → String → Action ω Unit
  /-- Drops the text under a name and says whether there was one. -/
  remove : σ → String → Action ω Bool
  contains : σ → String → Action ω Bool
  clear : σ → Action ω Unit
  size : σ → Action ω Nat

/-- A value to be stored: a JSON value, or a map, whose entries stand in the order in which they are
written. -/
inductive Payload where
  | json (value : Json)
  | map (entries : List (Json × Json))

namespace Payload

/-- The name that a key of a map is written as. Scalars are names by their texts; nothing, arrays
and objects are no names. -/
def nameOf? : Json → Option String
  | .string name => some name
  | .bool b => some (Json.bool b).compact
  | .integer n => some (Json.integer n).compact
  | .float x => some (Json.float x).compact
  | .null | .array _ | .object _ => none

def encode : Payload → Except Error String
  | .json value => .ok value.compact
  | .map entries =>
    match entries.mapM fun (key, value) => (nameOf? key).map fun name => (name, value) with
    | some fields => .ok (Json.object fields).compact
    | none => .error (.cache .unwritable)

def ofRows (rows : List Row) : Payload := .json (.ofRows rows)

end Payload

def decodeStored {α : Type} (read : Json.Reader α) (text : String) : Except Error α :=
  (Json.decode read text).mapError fun fault => .cache (.unreadable fault)

namespace Stores

variable {σ ω α : Type}

/-- The value under a name, if there is one. -/
def read (stores : Stores σ ω) (store : σ) (reader : Json.Reader α) (name : String) :
    Action ω (Option α) := do
  match ← stores.get store name with
  | none => pure none
  | some text => some <$> Action.ofResult (decodeStored reader text)

/-- Keeps a value under a name; a value without a stored form reaches no store. -/
def write (stores : Stores σ ω) (store : σ) (name : String) (payload : Payload) :
    Action ω Unit := do
  stores.put store name (← Action.ofResult payload.encode)

end Stores
end ResultCache
