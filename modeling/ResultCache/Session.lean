import ResultCache.Statement.Key
import ResultCache.Transaction

/-!
# Sessions

A session executes statements on an engine and answers queries from the statements' named caches
where it may. Cache writes and flushes are staged in the session's transaction, and reach the
shared stores only when the engine has committed or the session is closed.
-/

namespace ResultCache

/-- The outcome of one statement of a batch. -/
structure BatchResult where
  statement : String
  counts : List UInt64
  deriving DecidableEq, Repr

/-- What receives the rows of a query that streams them: the effect of one row on the world. -/
abbrev RowHandler (ω : Type) := Row → ω → ω

/-- A statement-execution engine that acts on a world `ω`. It serves one session. -/
structure Engine (σ ω : Type) where
  /-- Runs a query. With a handler the rows go there, and the answer is empty. -/
  query : Statement σ → Parameters → RowBounds → Option (RowHandler ω) → Action ω (List Row)
  /-- Opens a cursor; the rows are those it will deliver. -/
  cursor : Statement σ → Parameters → RowBounds → Action ω (List Row)
  /-- Runs a statement that changes data and answers how many rows it affected. -/
  update : Statement σ → Parameters → Action ω UInt64
  /-- Sends what is batched to the database. -/
  flushStatements : Action ω (List BatchResult)
  commit : (required : Bool) → Action ω Unit
  rollback : (required : Bool) → Action ω Unit
  close : (forceRollback : Bool) → Action ω Unit
  isClosed : ω → Bool
  /-- The environment whose keys differ from those of other environments. -/
  environment : ω → Option String
  /-- The lookup key of an invocation. -/
  lookupKey : Statement σ → Parameters → RowBounds → ω → Except Error Key
  /-- Whether the engine's own cache, which belongs to the session, holds a key. -/
  isCached : Statement σ → Key → ω → Bool
  /-- Empties the engine's own cache. -/
  clearLocalCache : ω → ω

/-- The lookup key that an engine makes unless it has a rule of its own: none once it is closed,
and else the invocation's key in the engine's environment. -/
def Engine.defaultKey {σ : Type} (closed : Bool) (environment : Option String)
    (st : Statement σ) (params : Parameters) (bounds : RowBounds) : Except Error Key :=
  if closed then .error .closed else st.lookupKey params bounds environment

/-- A session: its engine and the stores that its statements' caches lead to. -/
structure Session (σ ω : Type) where
  engine : Engine σ ω
  stores : Stores σ ω

namespace Session

variable {σ ω α : Type}

/-- The state of a session: its transaction, and the world around it. -/
abbrev State (σ ω : Type) := Transaction σ × ω

/-- A step of the engine, which leaves the transaction alone. -/
def onWorld (action : Action ω α) : Action (State σ ω) α :=
  action.within Prod.snd fun world state => (state.1, world)

/-- A change of the transaction, which leaves the world alone. -/
def onTransaction (change : Transaction σ → Transaction σ) : Action (State σ ω) Unit :=
  Action.ofFunction fun (tx, world) => (.ok (), (change tx, world))

/-- Stages a clear of the statement's cache if the statement asks for one. -/
def flushIfRequired (st : Statement σ) : Action (State σ ω) Unit :=
  match st.cache with
  | some cache => if st.flushCache then onTransaction fun tx => tx.clear cache else pure ()
  | none => pure ()

/-- Refuses procedures that write to their parameters: a cached answer could not do so. -/
def refuseOutput (st : Statement σ) : Except Error Unit :=
  if st.type = .callable ∧ st.hasOutput then
    .error (.configuration (.cachedOutput st.id))
  else .ok ()

/-- The engine's key as a step, which leaves the world alone. -/
def askKey (s : Session σ ω) (st : Statement σ) (params : Parameters) (bounds : RowBounds) :
    Action ω Key :=
  Action.ofFunction fun world => (s.engine.lookupKey st params bounds world, world)

/-- The rows of a query that may be answered from a cache, under the key that is asked for: those
that the transaction sees, or else those of the engine, which are then staged. -/
def cachedQuery (s : Session σ ω) (ask : Action ω Key) (cache : NamedCache σ) (st : Statement σ)
    (params : Parameters) (bounds : RowBounds) : Action (State σ ω) (List Row) := do
  Action.ofResult (refuseOutput st)
  let key ← onWorld ask
  match ← Transaction.get s.stores Json.rows cache key with
  | some rows => pure rows
  | none =>
    let rows ← onWorld (s.engine.query st params bounds none)
    Action.ofFunction fun (tx, world) =>
      match tx.put cache key (Payload.ofRows rows) with
      | .ok tx => (.ok (), (tx, world))
      | .error e => (.error e, (tx, world))
    pure rows

/-- A query that gets its key in the given step. Only a statement with a cache, which it may use,
and no handler is answered from the cache. -/
def queryAsking (s : Session σ ω) (ask : Action ω Key) (st : Statement σ) (params : Parameters)
    (bounds : RowBounds) (handler : Option (RowHandler ω)) : Action (State σ ω) (List Row) := do
  flushIfRequired st
  match st.cache with
  | none => onWorld (s.engine.query st params bounds handler)
  | some cache =>
    if !st.useCache || handler.isSome then onWorld (s.engine.query st params bounds handler)
    else s.cachedQuery ask cache st params bounds

/-- Runs a query under the engine's key. -/
def query (s : Session σ ω) (st : Statement σ) (params : Parameters) (bounds : RowBounds)
    (handler : Option (RowHandler ω)) : Action (State σ ω) (List Row) :=
  s.queryAsking (s.askKey st params bounds) st params bounds handler

/-- Opens a cursor, never from the cache. -/
def cursor (s : Session σ ω) (st : Statement σ) (params : Parameters) (bounds : RowBounds) :
    Action (State σ ω) (List Row) := do
  flushIfRequired st
  onWorld (s.engine.cursor st params bounds)

def update (s : Session σ ω) (st : Statement σ) (params : Parameters) :
    Action (State σ ω) UInt64 := do
  flushIfRequired st
  onWorld (s.engine.update st params)

def flushStatements (s : Session σ ω) : Action (State σ ω) (List BatchResult) :=
  onWorld s.engine.flushStatements

/-- Commits the engine, and the staged views, in the given order, once the engine has committed. -/
def commitIn (s : Session σ ω) (order : CommitOrder σ) (required : Bool) :
    Action (State σ ω) Unit := do
  onWorld (s.engine.commit required)
  Transaction.commitIn s.stores order

/-- Commits the engine, and the staged views once the engine has committed. -/
def commit (s : Session σ ω) (required : Bool) : Action (State σ ω) Unit :=
  s.commitIn CommitOrder.staged required

/-- Rolls the engine back, and drops the staged views if that is required, even if the engine
failed. -/
def rollback (s : Session σ ω) (required : Bool) : Action (State σ ω) Unit :=
  Action.ofFunction fun state =>
    match (onWorld (s.engine.rollback required)).runOn state with
    | (result, (tx, world)) => (result, (if required then tx.rollback else tx, world))

/-- Ends the transaction, by a rollback if that is forced and else by a commit in the given order,
and closes the engine in any case. The engine's failure counts before that of the cache. -/
def closeIn (s : Session σ ω) (order : CommitOrder σ) (forceRollback : Bool) :
    Action (State σ ω) Unit :=
  Action.ofFunction fun state =>
    let ended : Except Error Unit × State σ ω :=
      if forceRollback then (.ok (), (state.1.rollback, state.2))
      else (Transaction.commitIn s.stores order).runOn state
    match (onWorld (s.engine.close forceRollback)).runOn ended.2 with
    | (.ok (), state) => (ended.1, state)
    | (.error e, state) => (.error e, state)

/-- Ends the transaction and closes the engine. -/
def close (s : Session σ ω) (forceRollback : Bool) : Action (State σ ω) Unit :=
  s.closeIn CommitOrder.staged forceRollback

def isClosed (s : Session σ ω) (world : ω) : Bool := s.engine.isClosed world

def environment (s : Session σ ω) (world : ω) : Option String := s.engine.environment world

def lookupKey (s : Session σ ω) (st : Statement σ) (params : Parameters) (bounds : RowBounds)
    (world : ω) : Except Error Key := s.engine.lookupKey st params bounds world

def isCached (s : Session σ ω) (st : Statement σ) (key : Key) (world : ω) : Bool :=
  s.engine.isCached st key world

def clearLocalCache (s : Session σ ω) (world : ω) : ω := s.engine.clearLocalCache world

end Session
end ResultCache
