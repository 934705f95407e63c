import ResultCache.Session

/-! # Requests to a session -/

namespace ResultCache

variable {σ ω : Type}

/-- What a client asks for. A commit and a close come with the order in which they carry out what
is staged. -/
inductive Request (σ ω : Type) where
  | query (st : Statement σ) (params : Parameters) (bounds : RowBounds)
    (handler : Option (RowHandler ω))
  | cursor (st : Statement σ) (params : Parameters) (bounds : RowBounds)
  | update (st : Statement σ) (params : Parameters)
  | flushStatements
  | commit (required : Bool) (order : CommitOrder σ)
  | rollback (required : Bool)
  | close (forceRollback : Bool) (order : CommitOrder σ)
  | clearLocalCache

inductive Reply where
  | rows (rows : List Row)
  | count (affected : UInt64)
  | batches (results : List BatchResult)
  | done

def Engine.serve (engine : Engine σ ω) : Request σ ω → Action ω Reply
  | .query st params bounds handler => .rows <$> engine.query st params bounds handler
  | .cursor st params bounds => .rows <$> engine.cursor st params bounds
  | .update st params => .count <$> engine.update st params
  | .flushStatements => .batches <$> engine.flushStatements
  | .commit required _ => (fun _ => .done) <$> engine.commit required
  | .rollback required => (fun _ => .done) <$> engine.rollback required
  | .close forceRollback _ => (fun _ => .done) <$> engine.close forceRollback
  | .clearLocalCache => .ofFunction fun world => (.ok .done, engine.clearLocalCache world)

/-- The transaction with the clear staged that a statement asks for. -/
def Transaction.flushed (tx : Transaction σ) (st : Statement σ) : Transaction σ :=
  match st.cache with
  | some cache => if st.flushCache then tx.clear cache else tx
  | none => tx

namespace Session

def serve (s : Session σ ω) : Request σ ω → Action (State σ ω) Reply
  | .query st params bounds handler => .rows <$> s.query st params bounds handler
  | .cursor st params bounds => .rows <$> s.cursor st params bounds
  | .update st params => .count <$> s.update st params
  | .flushStatements => .batches <$> s.flushStatements
  | .commit required order => (fun _ => .done) <$> s.commitIn order required
  | .rollback required => (fun _ => .done) <$> s.rollback required
  | .close forceRollback order => (fun _ => .done) <$> s.closeIn order forceRollback
  | .clearLocalCache => .ofFunction fun (tx, world) => (.ok .done, (tx, s.clearLocalCache world))

theorem runOn_flushIfRequired (st : Statement σ) (tx : Transaction σ) (world : ω) :
    (flushIfRequired st).runOn (tx, world) = (.ok (), (tx.flushed st, world)) := by
  unfold flushIfRequired Transaction.flushed
  cases st.cache with
  | none => rfl
  | some cache => cases st.flushCache <;> rfl

theorem runOn_onWorld {α : Type} (action : Action ω α) (tx : Transaction σ) (world : ω) :
    (onWorld action).runOn (tx, world) =
      ((action.runOn world).1, (tx, (action.runOn world).2)) := rfl

section Operations

variable (s : Session σ ω) (st : Statement σ) (params : Parameters) (bounds : RowBounds)
  (tx : Transaction σ) (world : ω)

theorem runOn_cursor : (s.cursor st params bounds).runOn (tx, world) =
    match (s.engine.cursor st params bounds).runOn world with
    | (result, world) => (result, (tx.flushed st, world)) := by
  rw [cursor, Action.runOn_bind, runOn_flushIfRequired]
  rfl

theorem runOn_update : (s.update st params).runOn (tx, world) =
    match (s.engine.update st params).runOn world with
    | (result, world) => (result, (tx.flushed st, world)) := by
  rw [update, Action.runOn_bind, runOn_flushIfRequired]
  rfl

theorem runOn_commitIn (order : CommitOrder σ) (required : Bool) :
    (s.commitIn order required).runOn (tx, world) =
      match (s.engine.commit required).runOn world with
      | (.ok (), world) => (Transaction.commitIn s.stores order).runOn (tx, world)
      | (.error e, world) => (.error e, (tx, world)) := by
  rw [commitIn, Action.runOn_bind, runOn_onWorld]
  rcases (s.engine.commit required).runOn world with ⟨_ | _, _⟩ <;> rfl

theorem state_closeIn (order : CommitOrder σ) (forceRollback : Bool) :
    ((s.closeIn order forceRollback).runOn (tx, world)).2 =
      (tx.next, ((s.engine.close forceRollback).runOn (if forceRollback then world
        else ((Transaction.commitIn s.stores order).runOn (tx, world)).2.2)).2) := by
  rw [closeIn, Action.runOn_ofFunction]
  cases forceRollback with
  | true =>
    simp only [if_true, runOn_onWorld]
    rcases (s.engine.close true).runOn world with ⟨_ | _, _⟩ <;> rfl
  | false =>
    have htx : ((Transaction.commitIn s.stores order).runOn (tx, world)).2.1 = tx.next := by
      rw [Transaction.runOn_commitIn]
    rcases hended : (Transaction.commitIn s.stores order).runOn (tx, world) with ⟨_, tx', after⟩
    rw [hended] at htx
    simp only [Bool.false_eq_true, if_false, runOn_onWorld]
    rcases (s.engine.close false).runOn after with ⟨_ | _, _⟩
    · exact congrArg (·, _) htx
    · exact congrArg (·, _) htx

end Operations

section Queries

variable (s : Session σ ω) (st : Statement σ) (params : Parameters) (bounds : RowBounds)
  (handler : Option (RowHandler ω)) (tx : Transaction σ) (world : ω)

/-- A query that may be answered from a cache: its statement has one and may use it, and nobody
waits for single rows. -/
structure Cacheable (cache : NamedCache σ) : Prop where
  cached : st.cache = some cache
  used : st.useCache = true
  unstreamed : handler = none

/-- A query that may be answered from a cache, and whose key is known. -/
structure Keyed (cache : NamedCache σ) (key : Key) : Prop extends Cacheable st handler cache where
  allowed : refuseOutput st = .ok ()
  keyed : s.engine.lookupKey st params bounds world = .ok key

variable {s st params bounds handler world}

theorem runOn_queryAsking_of_direct (ask : Action ω Key)
    (uncached : ∀ cache, ¬ Cacheable st handler cache) :
    (s.queryAsking ask st params bounds handler).runOn (tx, world) =
      match (s.engine.query st params bounds handler).runOn world with
      | (result, world) => (result, (tx.flushed st, world)) := by
  rw [queryAsking, Action.runOn_bind, runOn_flushIfRequired]
  cases hc : st.cache with
  | none => rfl
  | some cache =>
    have hb : (!st.useCache || handler.isSome) = true := by
      cases h : !st.useCache || handler.isSome with
      | true => rfl
      | false =>
        rw [Bool.or_eq_false_iff, Bool.not_eq_false', Option.isSome_eq_false_iff,
          Option.isNone_iff_eq_none] at h
        exact absurd ⟨hc, h.1, h.2⟩ (uncached cache)
    dsimp only
    rw [if_pos hb]
    rfl

theorem runOn_queryAsking_of_cacheable (ask : Action ω Key) {cache : NamedCache σ}
    (cacheable : Cacheable st handler cache) :
    (s.queryAsking ask st params bounds handler).runOn (tx, world) =
      match refuseOutput st with
      | .error e => (.error e, (tx.flushed st, world))
      | .ok () =>
        match ask.runOn world with
        | (.error e, world) => (.error e, (tx.flushed st, world))
        | (.ok key, world) =>
          match (Transaction.get s.stores Json.rows cache key).runOn (tx.flushed st, world) with
          | (.error e, state) => (.error e, state)
          | (.ok (some rows), state) => (.ok rows, state)
          | (.ok none, (tx, world)) =>
            match (s.engine.query st params bounds none).runOn world with
            | (.error e, world) => (.error e, (tx, world))
            | (.ok rows, world) =>
              (.ok rows, (tx.putText cache key (Json.ofRows rows).compact, world)) := by
  obtain ⟨hc, hu, rfl⟩ := cacheable
  rw [queryAsking, Action.runOn_bind, runOn_flushIfRequired, hc]
  dsimp only
  rw [if_neg (by rw [hu]; simp), cachedQuery, Action.runOn_bind, Action.runOn_ofResult]
  cases refuseOutput st with
  | error e => rfl
  | ok _ =>
    dsimp only
    rw [Action.runOn_bind, runOn_onWorld]
    rcases ask.runOn world with ⟨e | key, world⟩
    · rfl
    · dsimp only
      rw [Action.runOn_bind]
      rcases (Transaction.get s.stores Json.rows cache key).runOn (tx.flushed st, world)
        with ⟨_ | _ | rows, tx, world⟩
      · rfl
      · dsimp only
        rw [Action.runOn_bind, runOn_onWorld]
        rcases (s.engine.query st params bounds none).runOn world with ⟨_ | _, _⟩ <;> rfl
      · rfl

/-- A query whose key is known looks into the cache before it goes to the engine, and stages what
the engine answers. -/
theorem runOn_query_of_keyed {cache : NamedCache σ} {key : Key}
    (keyed : Keyed s st params bounds handler world cache key) :
    (s.query st params bounds handler).runOn (tx, world) =
      match (Transaction.get s.stores Json.rows cache key).runOn (tx.flushed st, world) with
      | (.error e, state) => (.error e, state)
      | (.ok (some rows), state) => (.ok rows, state)
      | (.ok none, (tx, world)) =>
        match (s.engine.query st params bounds none).runOn world with
        | (.error e, world) => (.error e, (tx, world))
        | (.ok rows, world) =>
          (.ok rows, (tx.putText cache key (Json.ofRows rows).compact, world)) := by
  rw [query, runOn_queryAsking_of_cacheable _ _ keyed.toCacheable, keyed.allowed, askKey,
    Action.runOn_ofFunction, keyed.keyed]

end Queries

end Session
end ResultCache
