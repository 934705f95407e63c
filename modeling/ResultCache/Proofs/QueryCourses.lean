import ResultCache.Proofs.Beside
import ResultCache.Proofs.Logging

/-! # The courses that a query can take -/

namespace ResultCache

variable {σ δ ω χ : Type}

/-- What a query asks of others: the key of the invocation, something of a store, or the rows. -/
inductive Inquiry (σ : Type) where
  | key (st : Statement σ) (params : Parameters) (bounds : RowBounds)
  | store (store : σ) (call : StoreRequest)
  | rows (st : Statement σ) (params : Parameters) (bounds : RowBounds) (streamed : Bool)

def Inquiry.asksRows : Inquiry σ → Bool
  | rows .. => true
  | _ => false

def Engine.inquired (engine : Engine σ ω) : Engine σ (ω × List (Inquiry σ)) :=
  { engine.beside with
    query := fun st params bounds handler => .ofFunction fun world =>
      match (engine.beside.query st params bounds handler).runOn world with
      | (result, after) =>
        (result, (after.1, world.2 ++ [.rows st params bounds handler.isSome])) }

private theorem Engine.runOn_query_inquired (engine : Engine σ ω) (st : Statement σ)
    (params : Parameters)
    (bounds : RowBounds) (handler : Option (RowHandler ω)) (world : ω) (log : List (Inquiry σ)) :
    (engine.inquired.query st params bounds (handler.map besideHandler)).runOn (world, log) =
      match (engine.query st params bounds handler).runOn world with
      | (result, after) => (result, (after, log ++ [.rows st params bounds handler.isSome])) := by
  cases handler <;> rfl

def Stores.inquired (stores : Stores σ ω) : Stores σ (ω × List (Inquiry σ)) :=
  stores.logging .store

def View.inquiries (view : View σ) (key : Key) : List (Inquiry σ) :=
  (view.reads key).map (.store view.cache.store)

private theorem Transaction.transaction_get {α : Type} (stores : Stores σ ω)
    (reader : Json.Reader α) (cache : NamedCache σ) (key : Key) (tx : Transaction σ) (world : ω) :
    ((get stores reader cache key).runOn (tx, world)).2.1 = tx.stage cache id := by
  rw [runOn_get, runOn_getText]
  rcases ((tx.viewOf cache).get stores key).runOn world with ⟨_ | _ | text, after⟩ <;> rfl

namespace Session

/-- A query of which everything that it asks for is written down. -/
def inquiring (s : Session σ ω) (st : Statement σ) (params : Parameters) (bounds : RowBounds)
    (handler : Option (RowHandler ω)) : Action (State σ (ω × List (Inquiry σ))) (List Row) :=
  queryAsking ⟨s.engine.inquired, s.stores.inquired⟩
    ((s.askKey st params bounds).recorded (.key st params bounds)) st params bounds
    (handler.map besideHandler)

private theorem Cacheable.map {st : Statement σ} {handler : Option (RowHandler ω)}
    {cache : NamedCache σ} (h : Cacheable st handler cache) :
    Cacheable st (handler.map (besideHandler : _ → RowHandler (ω × χ))) cache :=
  ⟨h.cached, h.used, Option.map_eq_none_iff.mpr h.unstreamed⟩

private theorem Cacheable.of_map {st : Statement σ} {handler : Option (RowHandler ω)}
    {cache : NamedCache σ}
    (h : Cacheable st (handler.map (besideHandler : _ → RowHandler (ω × χ))) cache) :
    Cacheable st handler cache :=
  ⟨h.cached, h.used, Option.map_eq_none_iff.mp h.unstreamed⟩

section Courses

variable (s : Session σ ω) (st : Statement σ) (params : Parameters) (bounds : RowBounds)
  (handler : Option (RowHandler ω)) (tx : Transaction σ) (world : ω)

/-- The courses of a query in a transaction and a world: what it asks for, in order, what it
answers, and the transaction and the world that it leaves. -/
inductive Course : List (Inquiry σ) → Except Error (List Row) → State σ ω → Prop
  | direct {result : Except Error (List Row)} {after : ω}
      (uncached : ∀ cache, ¬ Cacheable st handler cache)
      (asked : (s.engine.query st params bounds handler).runOn world = (result, after)) :
      Course [.rows st params bounds handler.isSome] result (tx.flushed st, after)
  | refused {cache : NamedCache σ} {e : Error} (cacheable : Cacheable st handler cache)
      (refused : refuseOutput st = .error e) :
      Course [] (.error e) (tx.flushed st, world)
  | keyless {cache : NamedCache σ} {e : Error} (cacheable : Cacheable st handler cache)
      (allowed : refuseOutput st = .ok ())
      (unkeyed : s.engine.lookupKey st params bounds world = .error e) :
      Course [.key st params bounds] (.error e) (tx.flushed st, world)
  | unread {cache : NamedCache σ} {key : Key} {e : Error} {after : ω}
      (keyed : Keyed s st params bounds handler world cache key)
      (read : (Transaction.get s.stores Json.rows cache key).runOn (tx.flushed st, world) =
        (.error e, ((tx.flushed st).stage cache id, after))) :
      Course (.key st params bounds :: ((tx.flushed st).viewOf cache).inquiries key) (.error e)
        ((tx.flushed st).stage cache id, after)
  | hit {cache : NamedCache σ} {key : Key} {rows : List Row} {after : ω}
      (keyed : Keyed s st params bounds handler world cache key)
      (read : (Transaction.get s.stores Json.rows cache key).runOn (tx.flushed st, world) =
        (.ok (some rows), ((tx.flushed st).stage cache id, after))) :
      Course (.key st params bounds :: ((tx.flushed st).viewOf cache).inquiries key) (.ok rows)
        ((tx.flushed st).stage cache id, after)
  | failed {cache : NamedCache σ} {key : Key} {e : Error} {middle after : ω}
      (keyed : Keyed s st params bounds handler world cache key)
      (read : (Transaction.get s.stores Json.rows cache key).runOn (tx.flushed st, world) =
        (.ok none, ((tx.flushed st).stage cache id, middle)))
      (asked : (s.engine.query st params bounds none).runOn middle = (.error e, after)) :
      Course (.key st params bounds :: ((tx.flushed st).viewOf cache).inquiries key ++
        [.rows st params bounds false]) (.error e) ((tx.flushed st).stage cache id, after)
  | answered {cache : NamedCache σ} {key : Key} {rows : List Row} {middle after : ω}
      (keyed : Keyed s st params bounds handler world cache key)
      (read : (Transaction.get s.stores Json.rows cache key).runOn (tx.flushed st, world) =
        (.ok none, ((tx.flushed st).stage cache id, middle)))
      (asked : (s.engine.query st params bounds none).runOn middle = (.ok rows, after)) :
      Course (.key st params bounds :: ((tx.flushed st).viewOf cache).inquiries key ++
        [.rows st params bounds false]) (.ok rows)
        (((tx.flushed st).stage cache id).putText cache key (Json.ofRows rows).compact, after)

/-- A query that may be answered from a cache, and for which nothing is found there. -/
structure Missed (cache : NamedCache σ) (key : Key) : Prop
    extends Keyed s st params bounds handler world cache key where
  missed :
    ((Transaction.get s.stores Json.rows cache key).runOn (tx.flushed st, world)).1 = .ok none

/-- That a query goes one of its courses, and goes the same if it is written down, after the
inquiries of a log, what it asks for. -/
def GoesACourse (log : List (Inquiry σ)) : Prop :=
  ∃ asked result after world',
    (s.query st params bounds handler).runOn (tx, world) = (result, (after, world')) ∧
    (s.inquiring st params bounds handler).runOn (tx, (world, log)) =
      (result, (after, (world', log ++ asked))) ∧
    Course s st params bounds handler tx world asked result (after, world')

variable {handler world} in
theorem goesACourse_of_keyed {cache : NamedCache σ} {key : Key}
    (keyed : Keyed s st params bounds handler world cache key) (log : List (Inquiry σ)) :
    GoesACourse s st params bounds handler tx world log := by
  have hstate := Transaction.transaction_get s.stores Json.rows cache key (tx.flushed st) world
  rw [GoesACourse, query, inquiring,
    runOn_queryAsking_of_cacheable _ _ keyed.toCacheable,
    runOn_queryAsking_of_cacheable _ _ keyed.toCacheable.map, keyed.allowed]
  dsimp only
  rw [Action.runOn_recorded, askKey, Action.runOn_ofFunction, keyed.keyed]
  dsimp only
  rw [Stores.inquired, Transaction.runOn_get_logging, ← View.inquiries]
  rcases hget : (Transaction.get s.stores Json.rows cache key).runOn (tx.flushed st, world)
    with ⟨e | _ | rows, tx', middle⟩
  · obtain rfl : tx' = _ := hget ▸ hstate
    refine ⟨_, _, _, _, rfl, ?_, .unread keyed hget⟩
    simp only [List.append_assoc, List.singleton_append]
  · obtain rfl : tx' = _ := hget ▸ hstate
    have hengine := Engine.runOn_query_inquired s.engine st params bounds none middle
      (log ++ [.key st params bounds] ++ ((tx.flushed st).viewOf cache).inquiries key)
    rw [Option.map_none] at hengine
    dsimp only
    rw [hengine]
    rcases hasked : (s.engine.query st params bounds none).runOn middle with ⟨e | rows, after⟩
    · refine ⟨_, _, _, _, rfl, ?_, .failed keyed hget hasked⟩
      simp only [List.append_assoc, List.cons_append, List.nil_append, Option.isSome_none]
    · refine ⟨_, _, _, _, rfl, ?_, .answered keyed hget hasked⟩
      simp only [List.append_assoc, List.cons_append, List.nil_append, Option.isSome_none]
  · obtain rfl : tx' = _ := hget ▸ hstate
    refine ⟨_, _, _, _, rfl, ?_, .hit keyed hget⟩
    simp only [List.append_assoc, List.singleton_append]

theorem goesACourse (log : List (Inquiry σ)) :
    GoesACourse s st params bounds handler tx world log := by
  by_cases h : ∃ cache, Cacheable st handler cache
  · obtain ⟨cache, cacheable⟩ := h
    cases hr : refuseOutput st with
    | error e =>
      refine ⟨[], _, _, _, ?_, ?_, .refused cacheable hr⟩
      · rw [query, runOn_queryAsking_of_cacheable _ _ cacheable, hr]
      · rw [inquiring, runOn_queryAsking_of_cacheable _ _ cacheable.map, hr,
          List.append_nil]
    | ok _ =>
      cases hk : s.engine.lookupKey st params bounds world with
      | error e =>
        refine ⟨_, _, _, _, ?_, ?_, .keyless cacheable hr hk⟩
        · rw [query, runOn_queryAsking_of_cacheable _ _ cacheable, hr]
          dsimp only
          rw [askKey, Action.runOn_ofFunction, hk]
        · rw [inquiring, runOn_queryAsking_of_cacheable _ _ cacheable.map, hr]
          dsimp only
          rw [Action.runOn_recorded, askKey, Action.runOn_ofFunction, hk]
      | ok key => exact goesACourse_of_keyed s st params bounds tx ⟨cacheable, hr, hk⟩ log
  · have uncached : ∀ cache, ¬ Cacheable st handler cache := not_exists.mp h
    rcases hasked : (s.engine.query st params bounds handler).runOn world with ⟨result, after⟩
    refine ⟨[.rows st params bounds handler.isSome], _, _, _, ?_, ?_, .direct uncached hasked⟩
    · rw [query, runOn_queryAsking_of_direct _ _ uncached, hasked]
    · rw [inquiring, runOn_queryAsking_of_direct _ _ fun cache h => uncached cache h.of_map,
        Engine.runOn_query_inquired, hasked]

end Courses

/-- Where the stores live beside the engine, a query leaves alone what they keep, and the engine's
part of the world changes only as its own query changes it. -/
theorem Course.over [DecidableEq σ] {engine : Engine σ δ} {stores : Stores σ ω}
    (maps : MapFamily stores) {st : Statement σ} {params : Parameters} {bounds : RowBounds}
    {handler : Option (RowHandler δ)} {tx tx' : Transaction σ} {before after : δ × ω}
    {asked : List (Inquiry σ)} {result : Except Error (List Row)}
    (course : Course (Session.over engine stores) st params bounds (handler.map besideHandler) tx
      before asked result (tx', after)) :
    (after.1 = before.1 ∨
        (engine.query st params bounds handler).runOn before.1 = (result, after.1)) ∧
      maps.held after.2 = maps.held before.2 ∧
      ∀ store, maps.healthy before.2 store → maps.healthy after.2 store := by
  cases course with
  | direct _ asked =>
    obtain ⟨hrun, hsecond⟩ := Session.of_query_over handler asked
    exact ⟨.inr hrun, by rw [hsecond], fun _ h => hsecond ▸ h⟩
  | refused | keyless => exact ⟨.inl rfl, rfl, fun _ h => h⟩
  | unread _ read | hit _ read =>
    obtain ⟨hfirst, hheld, hhealthy, -⟩ := Transaction.of_get_beside maps read
    exact ⟨.inl hfirst, hheld, hhealthy⟩
  | failed keyed read asked | answered keyed read asked =>
    obtain rfl := Option.map_eq_none_iff.mp keyed.unstreamed
    obtain ⟨hfirst, hheld, hhealthy, -⟩ := Transaction.of_get_beside maps read
    obtain ⟨hrun, hsecond⟩ := Session.of_query_over none asked
    rw [hfirst] at hrun
    exact ⟨.inr hrun, by rw [hsecond, hheld], fun store h => hsecond ▸ hhealthy store h⟩

end Session
end ResultCache
