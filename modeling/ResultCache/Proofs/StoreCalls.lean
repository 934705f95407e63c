import ResultCache.Proofs.Databases
import ResultCache.Proofs.QueryCourses

/-! # Which calls reach the shared stores -/

namespace ResultCache

variable {σ ω α χ : Type}

/-- Whether calls of this kind change what a store keeps. -/
def CallKind.changes : CallKind → Bool
  | put | remove | clear => true
  | get | size => false

/-- The call that a request to a store counts as. -/
def StoreRequest.counted : StoreRequest → Call
  | get name | contains name => ⟨.get, name⟩
  | put name _ => ⟨.put, name⟩
  | remove name => ⟨.remove, name⟩
  | clear => ⟨.clear, ""⟩
  | size => ⟨.size, ""⟩

def Stores.recording (stores : Stores σ ω) : Stores σ (ω × List (σ × Call)) :=
  stores.logging fun store request => (store, request.counted)

/-- A session whose calls on the shared stores are written down. Its engine may change the world in
any way, and the stores with it, but makes no calls in the session's name. -/
def Session.watched (s : Session σ ω) : Session σ (ω × List (σ × Call)) :=
  ⟨s.engine.beside, s.stores.recording⟩

private theorem Transaction.calls_commitIn (stores : Stores σ ω) (order : CommitOrder σ)
    (tx : Transaction σ) (world : ω × List (σ × Call)) :
    Action.Extends (fun call : σ × Call => call.2.kind.changes = true) world.2
      ((commitIn stores.recording order).runOn (tx, world)).2.2 := by
  have keeps {α : Type} (action : Action ω α) (call : σ × Call)
      (h : call.2.kind.changes = true) :
      (action.recorded call).Keeps
        (Action.Extends (fun call : σ × Call => call.2.kind.changes = true) world.2) :=
    Action.keeps_recorded (Q := fun call : σ × Call => call.2.kind.changes = true) action h world.2
  refine keeps_commitIn (fun _ view _ => ?_) order world (Action.extends_self world)
  exact ⟨keeps _ _ rfl, fun _ => keeps _ _ rfl, fun _ _ _ => keeps _ _ rfl⟩

namespace Session

/-- Anything that can be done with a session: a request, or a question that is answered on the
spot. -/
inductive Step (σ ω : Type) where
  | request (request : Request σ ω)
  | lookupKey (st : Statement σ) (params : Parameters) (bounds : RowBounds)
  | isCached (st : Statement σ) (key : Key)
  | isClosed
  | environment

inductive Answer where
  | reply (reply : Reply)
  | key (key : Key)
  | flag (flag : Bool)
  | environment (name : Option String)

def Step.isQuery : Step σ ω → Bool
  | request (.query ..) => true
  | _ => false

def take (s : Session σ ω) : Step σ ω → Action (State σ ω) Answer
  | .request request => .reply <$> s.serve request
  | .lookupKey st params bounds => .ofFunction fun state =>
    ((s.lookupKey st params bounds state.2).map .key, state)
  | .isCached st key => .ofFunction fun state => (.ok (.flag (s.isCached st key state.2)), state)
  | .isClosed => .ofFunction fun state => (.ok (.flag (s.isClosed state.2)), state)
  | .environment => .ofFunction fun state =>
    (.ok (.environment (s.environment state.2)), state)

/-- One step of a run: the state that it was taken in, and what came of it. -/
structure Moment (σ ω : Type) where
  step : Step σ ω
  before : State σ ω
  outcome : Except Error Answer × State σ ω

def history (s : Session σ ω) : List (Step σ ω) → State σ ω → List (Moment σ ω)
  | [], _ => []
  | step :: rest, state =>
    ⟨step, state, (s.take step).runOn state⟩ :: s.history rest ((s.take step).runOn state).2

/-- Whether a step that is taken in a world publishes what is staged: a commit that the engine
accepts, or a close that forces no rollback. -/
def Publishes (s : Session σ ω) (world : ω) : Step σ (ω × List (σ × Call)) → Prop
  | .request (.commit required _) => ((s.engine.commit required).runOn world).1 = .ok ()
  | .request (.close forceRollback _) => forceRollback = false
  | _ => False

section Calls

variable (s : Session σ ω) (tx : Transaction σ) (world : ω × List (σ × Call))

/-- The world after a step holds the calls of the world before and then some more, as the step may
make them: such as change a store only to publish, and one reading call only for a query. -/
def Discreet (before : ω × List (σ × Call)) (step : Step σ (ω × List (σ × Call)))
    (after : ω × List (σ × Call)) : Prop :=
  ∃ calls, after.2 = before.2 ++ calls ∧
    (∀ call ∈ calls, call.2.kind.changes = true → s.Publishes before.1 step) ∧
    (∀ call ∈ calls, call.2.kind.changes = false →
      call.2.kind = .get ∧ step.isQuery = true) ∧
    (step.isQuery = true → calls.length ≤ 1)

variable {s world}

private theorem discreet_of_quiet {step : Step σ (ω × List (σ × Call))}
    {after : ω × List (σ × Call)} (h : after.2 = world.2) : s.Discreet world step after :=
  ⟨[], by simp [h], by simp, by simp, by simp⟩

private theorem discreet_of_read (st : Statement σ) (params : Parameters) (bounds : RowBounds)
    (handler : Option (RowHandler (ω × List (σ × Call)))) {cache : NamedCache σ} {key : Key}
    {found : Except Error (Option (List Row))} {tx' : Transaction σ} {middle : ω × List (σ × Call)}
    (read : (Transaction.get s.watched.stores Json.rows cache key).runOn (tx, world) =
      (found, (tx', middle))) {after : ω × List (σ × Call)} (same : after.2 = middle.2) :
    s.Discreet world (.request (.query st params bounds handler)) after := by
  let calls := ((tx.viewOf cache).reads key).map fun request =>
    ((tx.viewOf cache).cache.store, request.counted)
  have hlog : middle.2 = world.2 ++ calls := by
    have hget := Transaction.runOn_get_logging (fun store request => (store, request.counted))
      s.stores cache key tx world.1 world.2 Json.rows
    exact (congrArg (fun outcome => outcome.2.2.2) (read.symm.trans hget))
  have hkinds : ∀ call ∈ calls, call.2.kind = .get := by
    intro call hm
    obtain ⟨request, hrequest, rfl⟩ := List.mem_map.mp hm
    rw [(View.mem_reads.mp hrequest).2]
    rfl
  refine ⟨calls, same.trans hlog, fun call hm hchanges => ?_,
    fun call hm _ => ⟨hkinds call hm, rfl⟩, fun _ => ?_⟩
  · rw [hkinds call hm] at hchanges
    cases hchanges
  · rw [List.length_map]
    exact View.length_reads_le _ _

theorem discreet_query (st : Statement σ) (params : Parameters) (bounds : RowBounds)
    (handler : Option (RowHandler (ω × List (σ × Call)))) :
    s.Discreet world (.request (.query st params bounds handler))
      ((s.watched.query st params bounds handler).runOn (tx, world)).2.2 := by
  -- The engine's own query writes down nothing.
  have quiet (handler) (world : ω × List (σ × Call)) :
      ((s.watched.engine.query st params bounds handler).runOn world).2.2 = world.2 := rfl
  obtain ⟨asked, result, after, last, hquery, -, course⟩ :=
    goesACourse s.watched st params bounds handler tx world []
  rw [hquery]
  cases course with
  | direct _ asked =>
    exact discreet_of_quiet ((congrArg (fun outcome => outcome.2.2) asked).symm.trans (quiet _ _))
  | refused | keyless => exact discreet_of_quiet rfl
  | unread _ read | hit _ read => exact discreet_of_read _ st params bounds handler read rfl
  | failed _ read asked | answered _ read asked =>
    exact discreet_of_read _ st params bounds handler read
      ((congrArg (fun outcome => outcome.2.2) asked).symm.trans (quiet _ _))

private theorem discreet_of_extends {step : Step σ (ω × List (σ × Call))}
    {after : ω × List (σ × Call)} (publishes : s.Publishes world.1 step)
    (h : Action.Extends (fun call : σ × Call => call.2.kind.changes = true) world.2 after)
    (noQuery : step.isQuery = false) : s.Discreet world step after := by
  obtain ⟨calls, hcalls, hkinds⟩ := h
  refine ⟨calls, hcalls, fun _ _ _ => publishes, fun call hm hquiet => ?_, fun hq => ?_⟩
  · rw [hkinds call hm] at hquiet
    cases hquiet
  · rw [noQuery] at hq
    cases hq

private theorem discreet_commit (required : Bool) (order : CommitOrder σ) :
    s.Discreet world (.request (.commit required order))
      ((s.watched.commitIn order required).runOn (tx, world)).2.2 := by
  have hengine : (s.watched.engine.commit required).runOn world =
      (((s.engine.commit required).runOn world.1).1,
        (((s.engine.commit required).runOn world.1).2, world.2)) := rfl
  rw [runOn_commitIn, hengine]
  rcases hc : (s.engine.commit required).runOn world.1 with ⟨e | _, after⟩
  · exact discreet_of_quiet rfl
  · have hpublishes : s.Publishes world.1 (.request (.commit required order)) :=
      congrArg Prod.fst hc
    exact discreet_of_extends hpublishes
      (Transaction.calls_commitIn s.stores order tx (after, world.2)) rfl

private theorem discreet_close (forceRollback : Bool) (order : CommitOrder σ) :
    s.Discreet world (.request (.close forceRollback order))
      ((s.watched.closeIn order forceRollback).runOn (tx, world)).2.2 := by
  rw [state_closeIn]
  cases forceRollback with
  | true => exact discreet_of_quiet rfl
  | false =>
    exact discreet_of_extends rfl (Transaction.calls_commitIn s.stores order tx world) rfl

/-- Whatever is done with a session, it makes no calls but those that the step may make. -/
theorem discreet_take (step : Step σ (ω × List (σ × Call))) :
    s.Discreet world step ((s.watched.take step).runOn (tx, world)).2.2 := by
  cases step with
  | request request =>
    rw [take, Action.runOn_map]
    cases request with
    | query st params bounds handler =>
      rw [serve, Action.runOn_map]
      exact discreet_query tx st params bounds handler
    | cursor st params bounds =>
      rw [serve, Action.runOn_map, runOn_cursor]
      exact discreet_of_quiet rfl
    | update st params =>
      rw [serve, Action.runOn_map, runOn_update]
      exact discreet_of_quiet rfl
    | flushStatements =>
      rw [serve, Action.runOn_map]
      exact discreet_of_quiet rfl
    | commit required order =>
      rw [serve, Action.runOn_map]
      exact discreet_commit tx required order
    | rollback required =>
      rw [serve, Action.runOn_map]
      exact discreet_of_quiet rfl
    | close forceRollback order =>
      rw [serve, Action.runOn_map]
      exact discreet_close tx forceRollback order
    | clearLocalCache => exact discreet_of_quiet rfl
  | lookupKey st params bounds => exact discreet_of_quiet rfl
  | isCached st key => exact discreet_of_quiet rfl
  | isClosed => exact discreet_of_quiet rfl
  | environment => exact discreet_of_quiet rfl

theorem transaction_take_of_refused {required : Bool} {order : CommitOrder σ}
    (refused : ((s.engine.commit required).runOn world.1).1 ≠ .ok ()) :
    ((s.watched.take (.request (.commit required order))).runOn (tx, world)).2.1 = tx := by
  have hengine : ((s.watched.engine.commit required).runOn world).1 =
      ((s.engine.commit required).runOn world.1).1 := rfl
  rw [take, Action.runOn_map, serve, Action.runOn_map, runOn_commitIn]
  revert hengine
  rcases (s.watched.engine.commit required).runOn world with ⟨e | _, after⟩
  · exact fun _ => rfl
  · exact fun hengine => absurd hengine.symm refused

end Calls

/-- In every run of a session, whatever its engine and the stores do and whichever of their steps
fail, calls that change a shared store are made only by a commit that the engine has accepted and by
a close that forces no rollback. Only queries read from a shared store, each at most once. A commit
that the engine refuses leaves the transaction as it was. -/
theorem discreet_history (s : Session σ ω) (script : List (Step σ (ω × List (σ × Call))))
    (state : State σ (ω × List (σ × Call))) :
    ∀ moment ∈ s.watched.history script state,
      s.Discreet moment.before.2 moment.step moment.outcome.2.2 ∧
      ∀ required order, moment.step = .request (.commit required order) →
        ((s.engine.commit required).runOn moment.before.2.1).1 ≠ .ok () →
        moment.outcome.2.1 = moment.before.1 := by
  induction script generalizing state with
  | nil => simp [history]
  | cons step rest ih =>
    intro moment hm
    rcases List.mem_cons.mp hm with rfl | hm
    · refine ⟨discreet_take state.1 step, fun required order hstep refused => ?_⟩
      obtain rfl := hstep
      exact transaction_take_of_refused state.1 refused
    · exact ih _ moment hm

/-- An engine that refuses every commit that is required leaves the staged rows where they are; the
next commit, which it accepts, stores them. -/
theorem discreet_history_of_refusal :
    let users : NamedCache Nat := ⟨"users", 0⟩
    let find : Statement Nat :=
      { (Statement.ofCommand .select "find" "?" : Statement Nat) with cache := some users }
    let engine : Engine Nat (Snapshot Bool Nat × Shelf) :=
      { switch.beside with
        commit := fun required => if required then .ofResult (.error .closed) else pure () }
    let s : Session Nat (Snapshot Bool Nat × Shelf) := ⟨engine, Shelf.stores.beside⟩
    let script := [.request (.query find .none .unbounded none),
      .request (.commit true .staged), .request (.commit false .staged)]
    let state := (⟨0, Table.empty⟩, ((⟨false, false, 0⟩, [.map (.new .empty)]), []))
    ∃ refused ∈ s.watched.history script state,
      refused.step = .request (.commit true .staged) ∧
      ((s.engine.commit true).runOn refused.before.2.1).1 ≠ .ok () ∧
      s.Discreet refused.before.2 refused.step refused.outcome.2.2 ∧
      refused.outcome.2.1 = refused.before.1 ∧
      (s.watched.history script state).map (fun moment => moment.outcome.2.2.2.map (·.2.kind)) =
        [[.get], [.get], [.get, .put]] := by
  intro users find engine s script state
  have hm : ⟨.request (.commit true .staged), _, _⟩ ∈ s.watched.history script state :=
    List.mem_cons_of_mem _ List.mem_cons_self
  have refused : ((s.engine.commit true).runOn
      ((s.watched.take (.request (.query find .none .unbounded none))).runOn state).2.2.1).1 ≠
        .ok () := nofun
  obtain ⟨discreet, same⟩ := discreet_history s script state _ hm
  exact ⟨_, hm, rfl, refused, discreet, same true .staged rfl refused, rfl⟩

end Session
end ResultCache
