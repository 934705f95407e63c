import ResultCache.Proofs.Databases
import ResultCache.Proofs.Interleaving
import ResultCache.Proofs.QueryCourses

/-!
# Where cached rows come from

Whatever is staged or stored is the text of rows that some recorded call returned.
-/

namespace ResultCache

variable {ι σ δ ω : Type}

/-- A query call that an engine received: what was asked, whether a handler took the rows, the key
that the invocation had then, and what came of it. -/
structure QueryCall (σ : Type) where
  statement : Statement σ
  params : Parameters
  bounds : RowBounds
  streamed : Bool
  key : Except Error Key
  result : Except Error (List Row)

/-- The call was made for a statement that may use the cache, with a key, and returned the rows that
the text encodes. It took no handler and wrote to no parameters. -/
structure QueryCall.Explains (call : QueryCall σ) (cache : NamedCache σ) (key : Key)
    (text : String) : Prop where
  cache : call.statement.cache = some cache
  useCache : call.statement.useCache = true
  unstreamed : call.streamed = false
  noOutput : ¬ (call.statement.type = .callable ∧ call.statement.hasOutput = true)
  key : call.key = .ok key
  rows : ∃ rows, call.result = .ok rows ∧ (Payload.ofRows rows).encode = .ok text

def Engine.recording (engine : Engine σ δ) : Engine σ (δ × List (QueryCall σ)) :=
  { engine.beside with
    query := fun st params bounds handler => .ofFunction fun world =>
      let key := engine.lookupKey st params bounds world.1
      match (engine.beside.query st params bounds handler).runOn world with
      | (result, after) =>
        (result, (after.1, world.2 ++ [⟨st, params, bounds, handler.isSome, key, result⟩])) }

theorem Engine.runOn_query_recording (engine : Engine σ δ) (st : Statement σ) (params : Parameters)
    (bounds : RowBounds) (handler : Option (RowHandler δ)) (d : δ) (calls : List (QueryCall σ)) :
    (engine.recording.query st params bounds (handler.map besideHandler)).runOn (d, calls) =
      (((engine.query st params bounds handler).runOn d).1,
        (((engine.query st params bounds handler).runOn d).2, calls ++
          [⟨st, params, bounds, handler.isSome, engine.lookupKey st params bounds d,
            ((engine.query st params bounds handler).runOn d).1⟩])) := by
  cases handler <;> rfl

/-- The caches that a request is about are among the given ones. -/
def Request.Uses (caches : Set (NamedCache σ)) : Request σ δ → Prop
  | .query st _ _ _ | .cursor st _ _ | .update st _ =>
    ∀ cache, st.cache = some cache → cache ∈ caches
  | _ => True

namespace Transaction

/-- The transaction is to write a text under a key of the cache with an id. -/
def Writes (tx : Transaction σ) (ident : String) (key : Key) (text : String) : Prop :=
  ∃ view, tx.views.find? ident = some view ∧ view.writes.find? key = some text

variable {tx : Transaction σ} {cache : NamedCache σ} {ident : String} {key : Key} {text : String}

private theorem writes_of_viewOf (h : (tx.viewOf cache).writes.find? key = some text) :
    tx.Writes cache.id key text := by
  cases hv : tx.views.find? cache.id with
  | none =>
    rw [viewOf, hv] at h
    cases h
  | some view =>
    rw [viewOf, hv] at h
    exact ⟨view, hv, h⟩

private theorem writes_stage {f : View σ → View σ} (h : (tx.stage cache f).Writes ident key text) :
    ident = cache.id ∧ (f (tx.viewOf cache)).writes.find? key = some text ∨
      tx.Writes ident key text := by
  obtain ⟨view, hv, hw⟩ := h
  by_cases hid : ident = cache.id
  · simp only [stage, Table.find?_set, if_pos hid, Option.some.injEq] at hv
    exact .inl ⟨hid, hv ▸ hw⟩
  · simp only [stage, Table.find?_set, if_neg hid] at hv
    exact .inr ⟨view, hv, hw⟩

theorem writes_touch (h : (tx.stage cache id).Writes ident key text) :
    tx.Writes ident key text := by
  rcases writes_stage h with ⟨hid, hw⟩ | hw
  · exact hid ▸ writes_of_viewOf hw
  · exact hw

theorem writes_flushed {st : Statement σ} (h : (tx.flushed st).Writes ident key text) :
    tx.Writes ident key text := by
  unfold flushed at h
  cases hc : st.cache with
  | none =>
    rw [hc] at h
    exact h
  | some cache =>
    simp only [hc] at h
    split at h
    · rcases writes_stage h with ⟨-, hw⟩ | hw
      · cases hw
      · exact hw
    · exact h

theorem writes_putText {other : Key} {staged : String}
    (h : (tx.putText cache other staged).Writes ident key text) :
    ident = cache.id ∧ key = other ∧ text = staged ∨ tx.Writes ident key text := by
  rcases writes_stage h with ⟨hid, hw⟩ | hw
  · rw [View.put, Table.find?_set] at hw
    split at hw
    · rename_i hk
      exact .inl ⟨hid, hk, (Option.some.inj hw).symm⟩
    · exact .inr (hid ▸ writes_of_viewOf hw)
  · exact .inr hw

theorem not_writes_next : ¬ tx.next.Writes ident key text := by
  rintro ⟨view, hv, -⟩
  cases hv

section Within

variable {caches : Set (NamedCache σ)} (hw : tx.Within caches Set.univ)
  (oneStore : ∀ a ∈ caches, ∀ b ∈ caches, a.id = b.id → a.store = b.store)
include hw oneStore

theorem within_stage_univ (hc : cache ∈ caches) {f : View σ → View σ}
    (hcache : ∀ view, (f view).cache = view.cache) :
    (tx.stage cache f).Within caches Set.univ :=
  within_stage hw oneStore hc hcache ⟨fun _ _ _ => trivial, fun _ _ => trivial⟩

theorem within_flushed {st : Statement σ} (hst : ∀ cache, st.cache = some cache → cache ∈ caches) :
    (tx.flushed st).Within caches Set.univ := by
  unfold flushed
  cases hc : st.cache with
  | none => exact hw
  | some cache =>
    dsimp only
    split
    · exact within_stage_univ hw oneStore (hst cache hc) fun _ => rfl
    · exact hw

end Within

end Transaction

theorem Session.Course.within {s : Session σ ω} {st : Statement σ} {params : Parameters}
    {bounds : RowBounds} {handler : Option (RowHandler ω)} {tx : Transaction σ} {world : ω}
    {asked : List (Inquiry σ)} {result : Except Error (List Row)} {state : State σ ω}
    (course : Course s st params bounds handler tx world asked result state)
    {caches : Set (NamedCache σ)} (hw : tx.Within caches Set.univ)
    (oneStore : ∀ a ∈ caches, ∀ b ∈ caches, a.id = b.id → a.store = b.store)
    (hst : ∀ cache, st.cache = some cache → cache ∈ caches) :
    state.1.Within caches Set.univ := by
  have hflushed := Transaction.within_flushed hw oneStore hst
  have staging {cache : NamedCache σ} (hc : st.cache = some cache) :
      ((tx.flushed st).stage cache id).Within caches Set.univ :=
    Transaction.within_stage_univ hflushed oneStore (hst cache hc) fun _ => rfl
  cases course with
  | direct | refused | keyless => exact hflushed
  | unread keyed | hit keyed | failed keyed => exact staging keyed.cached
  | @answered cache key rows _ _ keyed =>
    exact Transaction.within_stage_univ (f := fun view => view.put key _) (staging keyed.cached)
      oneStore (hst cache keyed.cached) fun _ => rfl

/-- What a request may do to a session and the world: it writes down calls, it stages the text of
rows that a recorded call explains, and it stores what was pending. -/
structure Accounts [DecidableEq σ] {stores : Stores σ ω} (maps : MapFamily stores)
    (caches : Set (NamedCache σ))
    (before after : Session.State σ ((δ × List (QueryCall σ)) × ω)) : Prop where
  within : after.1.Within caches Set.univ
  calls : ∀ call ∈ before.2.1.2, call ∈ after.2.1.2
  staged : ∀ id key text, after.1.Writes id key text → before.1.Writes id key text ∨
    ∃ call ∈ after.2.1.2, ∃ cache ∈ caches, cache.id = id ∧ call.Explains cache key text
  stored : ∀ store name text, maps.held after.2.2 store name = some text →
    maps.held before.2.2 store name = some text ∨
      ∃ id view key, before.1.views.find? id = some view ∧ view.cache.store = store ∧
        key.storageKey = name ∧ view.writes.find? key = some text

section Accounts

variable [DecidableEq σ] {stores : Stores σ ω} {maps : MapFamily stores}
  {caches : Set (NamedCache σ)} {tx : Transaction σ} {d : δ} {calls : List (QueryCall σ)}
  {world : ω}

private theorem accounts_commitIn (maps : MapFamily stores) (caches : Set (NamedCache σ))
    (tx : Transaction σ) (d : δ) (calls : List (QueryCall σ)) (world : ω) (order : CommitOrder σ) :
    Accounts maps caches (tx, ((d, calls), world))
      ((Transaction.commitIn stores.beside order).runOn (tx, ((d, calls), world))).2 := by
  have hfirst := Transaction.first_commitIn_beside stores tx (d, calls) world order
  have hstored : (maps.beside (δ := δ × List (QueryCall σ))).Holds
      (fun store name text => maps.held world store name = some text ∨
        ∃ id view key, tx.views.find? id = some view ∧ view.cache.store = store ∧
          key.storageKey = name ∧ view.writes.find? key = some text)
      ((Transaction.commitIn stores.beside order).runOn (tx, ((d, calls), world))).2.2 := by
    refine Transaction.keeps_commitIn (fun id view hv => ?_) order _ fun _ _ _ ht => .inl ht
    exact MapFamily.callsKeep_holds fun key text ht => .inr ⟨id, view, key, hv, rfl, rfl, ht⟩
  have htx : ((Transaction.commitIn stores.beside order).runOn
      (tx, ((d, calls), world))).2.1 = tx.next := by
    rw [Transaction.runOn_commitIn]
  refine ⟨?_, fun call hm => ?_, fun id key text h => ?_, hstored⟩
  · rw [htx]
    exact Transaction.within_next tx caches Set.univ
  · rw [hfirst]
    exact hm
  · rw [htx] at h
    exact absurd h Transaction.not_writes_next

private theorem accounts_of_quiet {tx' : Transaction σ}
    {before after : (δ × List (QueryCall σ)) × ω} (within : tx'.Within caches Set.univ)
    (writes : ∀ id key text, tx'.Writes id key text → tx.Writes id key text)
    (unasked : after.1.2 = before.1.2) (held : maps.held after.2 = maps.held before.2) :
    Accounts maps caches (tx, before) (tx', after) where
  within := within
  calls call hm := by rwa [unasked]
  staged id key text h := .inl (writes id key text h)
  stored _ _ _ ht := .inl (held ▸ ht)

private theorem accounts_of_asked {tx' : Transaction σ}
    {before after : (δ × List (QueryCall σ)) × ω}
    {call : QueryCall σ} (within : tx'.Within caches Set.univ)
    (writes : ∀ id key text, tx'.Writes id key text → tx.Writes id key text ∨
      ∃ cache ∈ caches, cache.id = id ∧ call.Explains cache key text)
    (asked : after.1.2 = before.1.2 ++ [call]) (held : maps.held after.2 = maps.held before.2) :
    Accounts maps caches (tx, before) (tx', after) where
  within := within
  calls call hm := by
    rw [asked]
    exact List.mem_append_left _ hm
  staged id key text h :=
    (writes id key text h).imp_right fun hx => ⟨call, by rw [asked]; simp, hx⟩
  stored _ _ _ ht := .inl (held ▸ ht)

omit [DecidableEq σ] in
private theorem of_query_watched {engine : Engine σ δ} {st : Statement σ} {params : Parameters}
    {bounds : RowBounds} (handler : Option (RowHandler δ))
    {before after : (δ × List (QueryCall σ)) × ω} {result : Except Error (List Row)}
    (asked : ((Session.over engine.recording stores).engine.query st params bounds
      ((handler.map besideHandler).map besideHandler)).runOn before = (result, after)) :
    after.1.2 = before.1.2 ++ [⟨st, params, bounds, handler.isSome,
      engine.lookupKey st params bounds before.1.1, result⟩] ∧ after.2 = before.2 := by
  obtain ⟨⟨d, calls⟩, world⟩ := before
  rw [show (Session.over engine.recording stores).engine = engine.recording.beside from rfl,
    Engine.runOn_query_beside, Engine.runOn_query_recording] at asked
  cases asked
  exact ⟨rfl, rfl⟩

theorem source_getText (maps : MapFamily stores)
    (oneStore : ∀ a ∈ caches, ∀ b ∈ caches, a.id = b.id → a.store = b.store)
    (hw : tx.Within caches Set.univ) {cache : NamedCache σ} (hc : cache ∈ caches) {key : Key}
    {text : String} (seen : ((Transaction.getText stores cache key).runOn (tx, world)).1 =
      .ok (some text)) :
    tx.Writes cache.id key text ∨ maps.held world cache.store key.storageKey = some text := by
  rw [Transaction.runOn_getText] at seen
  rcases View.source_get maps seen with h | h
  · exact .inl (Transaction.writes_of_viewOf h)
  · rw [Transaction.viewOf_cache hw oneStore hc] at h
    exact .inr h

/-- A query accounts for what it does. If it is answered without its engine being asked, its rows
are read from a text that was staged or stored before for its cache and its key. -/
theorem accounts_query (maps : MapFamily stores)
    (oneStore : ∀ a ∈ caches, ∀ b ∈ caches, a.id = b.id → a.store = b.store)
    (before : Session.State σ ((δ × List (QueryCall σ)) × ω))
    (hw : before.1.Within caches Set.univ) (engine : Engine σ δ) {st : Statement σ}
    (hst : ∀ cache, st.cache = some cache → cache ∈ caches) (params : Parameters)
    (bounds : RowBounds) (handler : Option (RowHandler δ)) :
    let served := ((Session.over engine.recording stores).query st params bounds
      ((handler.map besideHandler).map besideHandler)).runOn before
    Accounts maps caches before served.2 ∧
      (served.2.2.1.2.length = before.2.1.2.length → ∀ rows, served.1 = .ok rows →
        ∃ cache key text, st.cache = some cache ∧
          engine.lookupKey st params bounds before.2.1.1 = .ok key ∧
          decodeStored Json.rows text = .ok rows ∧ (before.1.Writes cache.id key text ∨
            maps.held before.2.2 cache.store key.storageKey = some text)) := by
  obtain ⟨tx, start⟩ := before
  obtain ⟨asked, result, after, last, hquery, -, course⟩ :=
    Session.goesACourse (Session.over engine.recording stores) st params bounds
      ((handler.map besideHandler).map besideHandler) tx start []
  dsimp only
  rw [hquery]
  have within := course.within hw oneStore hst
  have touched : ∀ cache ident key text, ((tx.flushed st).stage cache id).Writes ident key text →
      tx.Writes ident key text := fun _ _ _ _ h =>
    Transaction.writes_flushed (Transaction.writes_touch h)
  cases course with
  | direct uncached asked =>
    obtain ⟨hcalls, hworld⟩ := of_query_watched handler asked
    refine ⟨accounts_of_asked within (fun _ _ _ h => .inl (Transaction.writes_flushed h)) hcalls
      (by rw [hworld]), fun unasked => ?_⟩
    simp [hcalls] at unasked
  | refused | keyless =>
    exact ⟨accounts_of_quiet within (fun _ _ _ => Transaction.writes_flushed) rfl rfl, nofun⟩
  | unread keyed read =>
    obtain ⟨hfirst, hheld, -, -⟩ := Transaction.of_get_beside maps read
    exact ⟨accounts_of_quiet within (touched _) (congrArg Prod.snd hfirst) hheld, nofun⟩
  | @hit cache key rows _ keyed read =>
    obtain ⟨hfirst, hheld, -, hfound⟩ := Transaction.of_get_beside maps read
    refine ⟨accounts_of_quiet within (touched _) (congrArg Prod.snd hfirst) hheld,
      fun _ _ hrows => ?_⟩
    obtain rfl := Except.ok.inj hrows
    obtain ⟨text, hseen, hdecode⟩ := hfound rows rfl
    refine ⟨cache, key, text, keyed.cached, keyed.keyed, hdecode, ?_⟩
    have hflushed := Transaction.within_flushed hw oneStore hst
    exact (source_getText maps.beside oneStore hflushed (hst cache keyed.cached) hseen).imp_left
      Transaction.writes_flushed
  | failed keyed read asked =>
    obtain ⟨hfirst, hheld, -, -⟩ := Transaction.of_get_beside maps read
    obtain ⟨hcalls, hworld⟩ := of_query_watched none asked
    rw [hfirst] at hcalls
    exact ⟨accounts_of_asked within (fun _ _ _ h => .inl (touched _ _ _ _ h)) hcalls
      (by rw [hworld, hheld]), nofun⟩
  | @answered cache key rows _ _ keyed read asked =>
    obtain ⟨hfirst, hheld, -, -⟩ := Transaction.of_get_beside maps read
    obtain ⟨hcalls, hworld⟩ := of_query_watched none asked
    rw [hfirst] at hcalls
    refine ⟨accounts_of_asked within (fun ident other text h => ?_) hcalls (by rw [hworld, hheld]),
      fun unasked => ?_⟩
    · rcases Transaction.writes_putText h with ⟨rfl, rfl, rfl⟩ | h
      · refine .inr ⟨cache, hst cache keyed.cached, rfl, keyed.cached, keyed.used, rfl, ?_,
          keyed.keyed, rows, rfl, rfl⟩
        intro output
        have allowed := keyed.allowed
        rw [Session.refuseOutput, if_pos output] at allowed
        cases allowed
      · exact .inl (touched _ _ _ _ h)
    · simp [hcalls] at unasked

private theorem accounts_commit (engine : Engine σ δ) (hw : tx.Within caches Set.univ)
    (order : CommitOrder σ) (required : Bool) :
    Accounts maps caches (tx, ((d, calls), world))
      (((Session.over engine.recording stores).commitIn order required).runOn
        (tx, ((d, calls), world))).2 := by
  rw [Session.runOn_commitIn]
  have hengine : ((Session.over engine.recording stores).engine.commit required).runOn
      ((d, calls), world) = (((engine.commit required).runOn d).1,
        ((((engine.commit required).runOn d).2, calls), world)) := rfl
  rw [hengine]
  rcases (engine.commit required).runOn d with ⟨e | _, d'⟩
  · exact accounts_of_quiet hw (fun _ _ _ h => h) rfl rfl
  · have h := accounts_commitIn maps caches tx d' calls world order
    exact ⟨h.within, h.calls, h.staged, h.stored⟩

private theorem accounts_close (engine : Engine σ δ) (order : CommitOrder σ)
    (forceRollback : Bool) :
    Accounts maps caches (tx, ((d, calls), world))
      (((Session.over engine.recording stores).closeIn order forceRollback).runOn
        (tx, ((d, calls), world))).2 := by
  rw [Session.state_closeIn]
  cases forceRollback with
  | true =>
    exact accounts_of_quiet (Transaction.within_next tx caches Set.univ)
      (fun _ _ _ h => absurd h Transaction.not_writes_next) rfl rfl
  | false =>
    have h := accounts_commitIn maps caches tx d calls world order
    exact ⟨Transaction.within_next tx caches Set.univ, h.calls,
      fun _ _ _ hw => absurd hw Transaction.not_writes_next, h.stored⟩

theorem accounts_serve (oneStore : ∀ a ∈ caches, ∀ b ∈ caches, a.id = b.id → a.store = b.store)
    (hw : tx.Within caches Set.univ) (engine : Engine σ δ) {request : Request σ δ}
    (uses : request.Uses caches) :
    Accounts maps caches (tx, ((d, calls), world))
      (((Session.over engine.recording stores).serve request.beside.beside).runOn
        (tx, ((d, calls), world))).2 := by
  cases request with
  | query st params bounds handler =>
    simp only [Session.serve, Request.beside, Action.runOn_map]
    exact (accounts_query maps oneStore _ hw engine uses params bounds handler).1
  | cursor st params bounds =>
    simp only [Session.serve, Request.beside, Action.runOn_map, Session.runOn_cursor]
    exact accounts_of_quiet (Transaction.within_flushed hw oneStore uses)
      (fun _ _ _ => Transaction.writes_flushed) rfl rfl
  | update st params =>
    simp only [Session.serve, Request.beside, Action.runOn_map, Session.runOn_update]
    exact accounts_of_quiet (Transaction.within_flushed hw oneStore uses)
      (fun _ _ _ => Transaction.writes_flushed) rfl rfl
  | flushStatements =>
    simp only [Session.serve, Request.beside, Action.runOn_map]
    exact accounts_of_quiet hw (fun _ _ _ h => h) rfl rfl
  | commit required order =>
    simp only [Session.serve, Request.beside, Action.runOn_map]
    exact accounts_commit engine hw order required
  | rollback required =>
    simp only [Session.serve, Request.beside, Action.runOn_map]
    cases required with
    | false => exact accounts_of_quiet hw (fun _ _ _ h => h) rfl rfl
    | true =>
      exact accounts_of_quiet (Transaction.within_next tx caches Set.univ)
        (fun _ _ _ h => absurd h Transaction.not_writes_next) rfl rfl
  | close forceRollback order =>
    simp only [Session.serve, Request.beside, Action.runOn_map]
    exact accounts_close engine order forceRollback
  | clearLocalCache => exact accounts_of_quiet hw (fun _ _ _ h => h) rfl rfl

end Accounts

namespace System

variable [DecidableEq ι]

/-- One session serves one request. Every session has an engine of its own; they share the database
and the stores, and the query calls of all engines are written down in order. -/
def serve (engines : ι → Engine σ δ) (stores : Stores σ ω)
    (system : System ι σ ((δ × List (QueryCall σ)) × ω)) (turn : ι × Request σ δ) :
    System ι σ ((δ × List (QueryCall σ)) × ω) :=
  system.become turn.1
    (((Session.over (engines turn.1).recording stores).serve turn.2.beside.beside).runOn
      (system.transactions turn.1, system.world)).2

def serveAll (engines : ι → Engine σ δ) (stores : Stores σ ω)
    (system : System ι σ ((δ × List (QueryCall σ)) × ω)) (script : List (ι × Request σ δ)) :
    System ι σ ((δ × List (QueryCall σ)) × ω) :=
  script.foldl (serve engines stores) system

def calls (system : System ι σ ((δ × List (QueryCall σ)) × ω)) : List (QueryCall σ) :=
  system.world.1.2

/-- Everything that is staged or stored is explained by a recorded call. -/
structure Accounted [DecidableEq σ] {stores : Stores σ ω} (maps : MapFamily stores)
    (caches : Set (NamedCache σ)) (system : System ι σ ((δ × List (QueryCall σ)) × ω)) : Prop where
  within : ∀ who, (system.transactions who).Within caches Set.univ
  staged : ∀ who id key text, (system.transactions who).Writes id key text →
    ∃ call ∈ system.calls, ∃ cache ∈ caches, cache.id = id ∧ call.Explains cache key text
  stored : ∀ store name text, maps.held system.world.2 store name = some text →
    ∃ call ∈ system.calls, ∃ cache ∈ caches, ∃ key, cache.store = store ∧
      key.storageKey = name ∧ call.Explains cache key text

section Accounted

variable [DecidableEq σ] {stores : Stores σ ω} {maps : MapFamily stores}
  {caches : Set (NamedCache σ)} {system : System ι σ ((δ × List (QueryCall σ)) × ω)}
  (oneStore : ∀ a ∈ caches, ∀ b ∈ caches, a.id = b.id → a.store = b.store)

omit [DecidableEq ι] in
private theorem accounted_start {d : δ} {world : ω}
    (empty : ∀ store name, maps.held world store name = none) :
    (start ((d, []), world) : System ι σ _).Accounted maps caches where
  within _ := Transaction.within_first caches Set.univ
  staged who id key text h := by
    obtain ⟨view, hv, -⟩ := h
    cases hv
  stored store name text h := by
    rw [show (start ((d, []), world) : System ι σ _).world.2 = world from rfl, empty] at h
    cases h

include oneStore

private theorem Accounted.become (h : system.Accounted maps caches) (who : ι)
    {state : Session.State σ ((δ × List (QueryCall σ)) × ω)}
    (accounts : Accounts maps caches (system.transactions who, system.world) state) :
    (system.become who state).Accounted maps caches := by
  have later : ∀ call ∈ system.calls, call ∈ (system.become who state).calls := accounts.calls
  constructor
  · intro other
    by_cases ho : other = who
    · simp only [System.become, ho, Function.update_self]
      exact accounts.within
    · simp only [System.become, Function.update_of_ne ho]
      exact h.within other
  · intro other id key text hw
    have recorded : (system.transactions other).Writes id key text →
        ∃ call ∈ (system.become who state).calls, ∃ cache ∈ caches, cache.id = id ∧
          call.Explains cache key text := by
      intro hw
      obtain ⟨call, hm, cache, hc, hid, hx⟩ := h.staged other id key text hw
      exact ⟨call, later call hm, cache, hc, hid, hx⟩
    by_cases ho : other = who
    · subst ho
      simp only [System.become, Function.update_self] at hw
      rcases accounts.staged id key text hw with hw | hw
      · exact recorded hw
      · exact hw
    · simp only [System.become, Function.update_of_ne ho] at hw
      exact recorded hw
  · intro store name text ht
    rcases accounts.stored store name text ht with ht | ⟨id, view, key, hv, rfl, rfl, hw⟩
    · obtain ⟨call, hm, rest⟩ := h.stored store name text ht
      exact ⟨call, later call hm, rest⟩
    · -- What is published was staged in a view whose id has one store only.
      obtain ⟨call, hm, cache, hc, hid, hx⟩ := h.staged who id key text ⟨view, hv, hw⟩
      have hstore := oneStore cache hc view.cache ((h.within who).known id view hv)
        (hid.trans ((h.within who).filed id view hv).symm)
      exact ⟨call, later call hm, cache, hc, key, hstore, rfl, hx⟩

theorem Accounted.serveAll (engines : ι → Engine σ δ) (h : system.Accounted maps caches)
    {script : List (ι × Request σ δ)} (uses : ∀ turn ∈ script, turn.2.Uses caches) :
    (system.serveAll engines stores script).Accounted maps caches := by
  induction script generalizing system with
  | nil => exact h
  | cons turn rest ih =>
    have hturn : Accounts maps caches (system.transactions turn.1, system.world)
        (((Session.over (engines turn.1).recording stores).serve turn.2.beside.beside).runOn
          (system.transactions turn.1, system.world)).2 :=
      accounts_serve oneStore (h.within turn.1) (engines turn.1) (uses turn (by simp))
    exact ih (h.become oneStore turn.1 hturn) fun t ht => uses t (List.mem_cons_of_mem _ ht)

omit [DecidableEq ι] in
theorem Accounted.recalled
    (oneId : ∀ a ∈ caches, ∀ b ∈ caches, a.store = b.store → a.id = b.id)
    (h : system.Accounted maps caches) (who : ι) (engine : Engine σ δ) {st : Statement σ}
    (hst : ∀ cache, st.cache = some cache → cache ∈ caches) (params : Parameters)
    (bounds : RowBounds) (handler : Option (RowHandler δ))
    (inj : Set.InjOn Key.storageKey { key | (∃ call ∈ system.calls, call.key = .ok key) ∨
      engine.lookupKey st params bounds system.world.1.1 = .ok key })
    (survive : ∀ call ∈ system.calls, ∀ rows, call.result = .ok rows →
      decodeStored Json.rows (Json.ofRows rows).compact = .ok rows)
    {rows : List Row} {state : Session.State σ ((δ × List (QueryCall σ)) × ω)}
    (served : ((Session.over engine.recording stores).query st params bounds
      ((handler.map besideHandler).map besideHandler)).runOn
        (system.transactions who, system.world) = (.ok rows, state))
    (unasked : state.2.1.2.length = system.calls.length) :
    ∃ call ∈ system.calls, ∃ cache other key, st.cache = some cache ∧
      engine.lookupKey st params bounds system.world.1.1 = .ok key ∧
      call.statement.cache = some other ∧ other.id = cache.id ∧ call.key = .ok key ∧
      call.result = .ok rows := by
  obtain ⟨-, hsource⟩ := accounts_query maps oneStore (system.transactions who, system.world)
    (h.within who) engine hst params bounds handler
  simp only [served] at hsource
  obtain ⟨cache, key, text, hcache, hkey, hdecode, hsource⟩ := hsource unasked rows rfl
  have explained : ∃ call ∈ system.calls, ∃ other, other.id = cache.id ∧
      call.Explains other key text := by
    rcases hsource with hw | ht
    · obtain ⟨call, hm, other, -, hid, hx⟩ := h.staged who cache.id key text hw
      exact ⟨call, hm, other, hid, hx⟩
    · obtain ⟨call, hm, other, ho, key', hstore, hname, hx⟩ :=
        h.stored cache.store key.storageKey text ht
      have hid := oneId other ho cache (hst cache hcache) hstore
      have hsame : key' = key := inj (.inl ⟨call, hm, hx.key⟩) (.inr hkey) hname
      exact ⟨call, hm, other, hid, hsame ▸ hx⟩
  obtain ⟨call, hm, other, hid, hx⟩ := explained
  obtain ⟨rows', hresult, hencode⟩ := hx.rows
  have htext : (Json.ofRows rows').compact = text := Except.ok.inj hencode
  have hrows : rows' = rows := by
    have hread := survive call hm rows' hresult
    rw [htext, hdecode] at hread
    exact (Except.ok.inj hread).symm
  exact ⟨call, hm, cache, other, key, hcache, hkey, hx.cache, hid, hx.key, hrows ▸ hresult⟩

end Accounted

/-- After every interleaving of any sessions' requests, whatever the engines answer and whichever
calls fail, everything that a session has staged and everything that a store keeps is explained by
a recorded call. So a query that is answered without its engine being asked returns the rows of an
earlier call for the same cache and key. -/
theorem explained_serveAll [DecidableEq σ] {stores : Stores σ ω} (maps : MapFamily stores)
    {caches : Set (NamedCache σ)}
    (oneStore : ∀ a ∈ caches, ∀ b ∈ caches, a.id = b.id → a.store = b.store)
    (oneId : ∀ a ∈ caches, ∀ b ∈ caches, a.store = b.store → a.id = b.id)
    (engines : ι → Engine σ δ) (script : List (ι × Request σ δ))
    (uses : ∀ turn ∈ script, turn.2.Uses caches) (d : δ) (world : ω)
    (empty : ∀ store name, maps.held world store name = none) :
    let system := (start ((d, []), world)).serveAll engines stores script
    (∀ who id key text, (system.transactions who).Writes id key text →
      ∃ call ∈ system.calls, ∃ cache, cache.id = id ∧ call.Explains cache key text) ∧
    (∀ store name text, maps.held system.world.2 store name = some text →
      ∃ call ∈ system.calls, ∃ cache key, cache.store = store ∧ key.storageKey = name ∧
        call.Explains cache key text) ∧
    ∀ who st params bounds (handler : Option (RowHandler δ)) rows state,
      (∀ cache, st.cache = some cache → cache ∈ caches) →
      Set.InjOn Key.storageKey { key | (∃ call ∈ system.calls, call.key = .ok key) ∨
        (engines who).lookupKey st params bounds system.world.1.1 = .ok key } →
      (∀ call ∈ system.calls, ∀ rows, call.result = .ok rows →
        decodeStored Json.rows (Json.ofRows rows).compact = .ok rows) →
      ((Session.over (engines who).recording stores).query st params bounds
        ((handler.map besideHandler).map besideHandler)).runOn
          (system.transactions who, system.world) = (.ok rows, state) →
      state.2.1.2.length = system.calls.length →
      ∃ call ∈ system.calls, ∃ cache other key, st.cache = some cache ∧
        (engines who).lookupKey st params bounds system.world.1.1 = .ok key ∧
        call.statement.cache = some other ∧ other.id = cache.id ∧ call.key = .ok key ∧
        call.result = .ok rows := by
  intro system
  have h : system.Accounted maps caches :=
    (accounted_start empty).serveAll oneStore engines uses
  refine ⟨fun who id key text hw => ?_, fun store name text ht => ?_, ?_⟩
  · obtain ⟨call, hm, cache, -, hx⟩ := h.staged who id key text hw
    exact ⟨call, hm, cache, hx⟩
  · obtain ⟨call, hm, cache, -, hx⟩ := h.stored store name text ht
    exact ⟨call, hm, cache, hx⟩
  · intro who st params bounds handler rows state hst inj survive served unasked
    exact h.recalled oneStore oneId who (engines who) hst params bounds handler inj survive served
      unasked

/-- A second session reads the row that the first session's call returned, and makes no call. -/
theorem explained_serveAll_of_switch :
    let users : NamedCache Nat := ⟨"users", 0⟩
    let shelf : Shelf := [.map (.new .empty)]
    let find : Statement Nat :=
      { (Statement.ofCommand .select "find" "?" : Statement Nat) with cache := some users }
    let script : List (Bool × Request Nat (Snapshot Bool Nat)) :=
      [(true, .query find .none .unbounded none), (false, .cursor find .none .unbounded),
        (true, .commit true .staged)]
    let system := (start ((⟨false, false, 0⟩, []), shelf)).serveAll (fun _ => switch) Shelf.stores
      script
    let served := ((Session.over switch.recording Shelf.stores).query find .none .unbounded
      none).runOn (system.transactions false, system.world)
    served.1 = .ok [switchRow false] ∧ served.2.2.1.2.length = system.calls.length ∧
      ∃ call ∈ system.calls, call.result = .ok [switchRow false] := by
  intro users shelf find script system served
  have hst : ∀ cache, find.cache = some cache → cache ∈ ({users} : Set (NamedCache Nat)) :=
    fun cache hc => (Option.some.inj hc).symm
  have uses : ∀ turn ∈ script, turn.2.Uses {users} := by
    simp only [script, List.forall_mem_cons]
    exact ⟨hst, hst, trivial, by simp⟩
  have empty : ∀ store name, Shelf.maps.held shelf store name = none := by
    intro store name
    match store with
    | 0 => rfl
    | _ + 1 => rfl
  let key := Key.ofComponents [.text "find", .int 0, .int 2147483647, .text "?", .text "test"]
  have hcalls : system.calls = [⟨find, .none, .unbounded, false, .ok key,
      .ok [switchRow false]⟩] := rfl
  have inj : Set.InjOn Key.storageKey { key | (∃ call ∈ system.calls, call.key = .ok key) ∨
      switch.lookupKey find .none .unbounded system.world.1.1 = .ok key } := by
    have only : ∀ other, (∃ call ∈ system.calls, call.key = .ok other) ∨
        switch.lookupKey find .none .unbounded system.world.1.1 = .ok other → other = key := by
      rintro other (⟨call, hm, h⟩ | h)
      · rw [hcalls] at hm
        rw [List.mem_singleton.mp hm] at h
        exact (Except.ok.inj h).symm
      · exact (Except.ok.inj h).symm
    intro a ha b hb _
    rw [only a ha, only b hb]
  have survive : ∀ call ∈ system.calls, ∀ rows, call.result = .ok rows →
      decodeStored Json.rows (Json.ofRows rows).compact = .ok rows := by
    rw [hcalls]
    intro call hm rows h
    rw [List.mem_singleton.mp hm] at h
    obtain rfl := Except.ok.inj h
    rfl
  have hfind : ∀ name text log, Shelf.maps.held [.map { MapStore.new Table.empty with
      entries := Table.empty.set name text
      calls := log }] 0 name = some text := by
    intro name text log
    simp [Shelf.maps, Shelf.held, ShelfStore.texts]
  obtain ⟨log, hshelf⟩ : ∃ log, system.world.2 = [.map { MapStore.new Table.empty with
      entries := Table.empty.set key.storageKey (Json.ofRows [switchRow false]).compact
      calls := log }] := ⟨_, rfl⟩
  have hheld := hfind key.storageKey (Json.ofRows [switchRow false]).compact log
  rw [← hshelf] at hheld
  have healthy : Shelf.maps.beside.healthy system.world 0 := by
    change Shelf.Healthy system.world.2 0
    rw [hshelf]
    exact ⟨_, rfl, fun _ => rfl⟩
  have hget := (Shelf.maps.beside.get 0 key.storageKey).answer_eq healthy
  rw [show Shelf.maps.beside.held system.world = Shelf.maps.held system.world.2 from rfl, hheld]
    at hget
  have hview : ((system.transactions false).flushed find).viewOf users = .fresh users := rfl
  have hread : (Transaction.get Shelf.stores.beside Json.rows users key).runOn
      ((system.transactions false).flushed find, system.world) =
        (.ok (some [switchRow false]), (((system.transactions false).flushed find).stage users id,
          ((Shelf.stores.beside.get 0 key.storageKey).runOn system.world).2)) := by
    rw [Transaction.runOn_get, Transaction.runOn_getText, hview,
      show (View.fresh users).get Shelf.stores.beside key =
        Shelf.stores.beside.get 0 key.storageKey from rfl, hget]
    rfl
  have hlookup : (Session.over switch.recording Shelf.stores).engine.lookupKey find .none .unbounded
      system.world = .ok key := rfl
  have keyed : Session.Keyed (Session.over switch.recording Shelf.stores) find .none .unbounded
      none system.world users key := ⟨⟨rfl, rfl, rfl⟩, rfl, hlookup⟩
  have hquery := Session.runOn_query_of_keyed (system.transactions false) keyed
  rw [show (Session.over switch.recording Shelf.stores).stores = Shelf.stores.beside from rfl,
    hread] at hquery
  have hrun : served = _ := hquery
  obtain ⟨-, -, recalled⟩ := explained_serveAll Shelf.maps (oneStore_singleton users)
    (oneId_singleton users) (fun _ => switch) script uses ⟨false, false, 0⟩ shelf empty
  obtain ⟨call, hm, -, -, -, -, -, -, -, -, hresult⟩ :=
    recalled false find .none .unbounded none _ _ hst inj survive hrun rfl
  exact ⟨congrArg Prod.fst hrun, congrArg (fun served => served.2.2.1.2.length) hrun, call, hm,
    hresult⟩

end System
end ResultCache
