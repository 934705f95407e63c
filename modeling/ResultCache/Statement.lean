import ResultCache.NamedCache
import ResultCache.Parameters

/-!
# Mapped statements

The description of a statement that a session executes: its text, its parameter mappings, and
whether it uses and flushes a named cache.
-/

namespace ResultCache

/-- How the engine issues a statement. -/
inductive StatementType where
  /-- Plain text without bind parameters. -/
  | simple
  /-- A prepared statement with bind parameters. -/
  | prepared
  /-- A stored procedure call. -/
  | callable
  deriving DecidableEq, Repr

/-- What a statement does to the data. -/
inductive CommandType where
  | select
  | insert
  | update
  | delete
  deriving DecidableEq, Repr

/-- Whether the command only reads. -/
def CommandType.isSelect : CommandType → Bool
  | .select => true
  | _ => false

inductive ParameterMode where
  | input
  | output
  | inputOutput
  deriving DecidableEq, Repr

/-- A placeholder and the property that it reads or writes. -/
structure ParameterMapping where
  property : String
  mode : ParameterMode
  deriving DecidableEq, Repr

/-- How primary keys come back from a statement. Only the engine acts on it. -/
inductive KeyGeneration where
  | none
  /-- Keys read back after the execution into the given properties. -/
  | generated (properties : List String)
  /-- Keys produced by another statement, before or after this one. -/
  | selectKey (statement : String) (before : Bool)
  deriving DecidableEq, Repr

/-- The window of rows that a query returns. -/
structure RowBounds where
  offset : UInt64
  limit : UInt64
  deriving DecidableEq, Repr

/-- All rows that a signed 32-bit count can number. -/
def RowBounds.unbounded : RowBounds := ⟨0, 2147483647⟩

/-- A mapped statement whose cache, if any, is a handle over `σ`. -/
structure Statement (σ : Type) where
  id : String
  sql : String
  type : StatementType
  command : CommandType
  cache : Option (NamedCache σ)
  /-- Whether queries may be answered from the cache. -/
  useCache : Bool
  /-- Whether an execution clears the cache. -/
  flushCache : Bool
  mappings : List ParameterMapping
  keyGeneration : KeyGeneration

/-- A statement's text with a value for every mapping. -/
structure BoundStatement where
  sql : String
  mappings : List ParameterMapping
  values : List Value
  deriving DecidableEq, Repr

namespace Statement

variable {σ : Type}

/-- A statement with the defaults of its command: selects use the cache and never flush it, all
others flush it and never use it. -/
def ofCommand (command : CommandType) (id sql : String) : Statement σ where
  id
  sql
  type := .prepared
  command
  cache := none
  useCache := command.isSelect
  flushCache := !command.isSelect
  mappings := []
  keyGeneration := .none

/-- Whether any mapping writes to the parameters. -/
def hasOutput (st : Statement σ) : Bool := st.mappings.any fun m => m.mode ≠ .input

/-- The value bound to one mapping; there is nothing to read for an output. -/
def bindMapping (params : Parameters) (mapping : ParameterMapping) : Except PathFault Value :=
  match mapping.mode with
  | .output => .ok .null
  | _ => params.resolve mapping.property

/-- Binds every mapping in order, up to the first that cannot be read. -/
def bind (st : Statement σ) (params : Parameters) : Except PathFault BoundStatement := do
  let values ← st.mappings.mapM (bindMapping params)
  pure ⟨st.sql, st.mappings, values⟩

end Statement

/-- The values that the statement reads, in the order of the placeholders. -/
def BoundStatement.inputs (bound : BoundStatement) : List Value :=
  ((bound.mappings.zip bound.values).filter fun (mapping, _) => mapping.mode ≠ .output).map Prod.snd

end ResultCache
