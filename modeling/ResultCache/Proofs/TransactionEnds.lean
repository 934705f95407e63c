import ResultCache.Proofs.FanOut
import ResultCache.Proofs.Generations

/-!
# How transactions end

Everything that a session asks of its engine and of the stores is written down, in order.
-/

namespace ResultCache

variable {σ ω α χ : Type}

/-- What a session asks its engine to do. -/
inductive EngineCall (σ : Type) where
  | query (st : Statement σ) (params : Parameters) (bounds : RowBounds)
  | cursor (st : Statement σ) (params : Parameters) (bounds : RowBounds)
  | update (st : Statement σ) (params : Parameters)
  | flushStatements
  | commit (required : Bool)
  | rollback (required : Bool)
  | close (forceRollback : Bool)
  | clearLocalCache

inductive Event (σ : Type) where
  | engine (call : EngineCall σ)
  | store (store : σ) (call : StoreRequest)

def Event.changesStore : Event σ → Bool
  | engine _ => false
  | store _ call => call.changes

/-- An engine that writes down everything it is asked to do, whether it fails or not. -/
def Engine.traced (engine : Engine σ ω) : Engine σ (ω × List (Event σ)) :=
  { engine.beside with
    query := fun st params bounds handler => .ofFunction fun world =>
      match (engine.beside.query st params bounds handler).runOn world with
      | (result, after) => (result, (after.1, world.2 ++ [.engine (.query st params bounds)]))
    cursor := fun st params bounds =>
      (engine.cursor st params bounds).recorded (.engine (.cursor st params bounds))
    update := fun st params => (engine.update st params).recorded (.engine (.update st params))
    flushStatements := engine.flushStatements.recorded (.engine .flushStatements)
    commit := fun required => (engine.commit required).recorded (.engine (.commit required))
    rollback := fun required => (engine.rollback required).recorded (.engine (.rollback required))
    close := fun forceRollback =>
      (engine.close forceRollback).recorded (.engine (.close forceRollback))
    clearLocalCache := fun world =>
      (engine.clearLocalCache world.1, world.2 ++ [.engine .clearLocalCache]) }

def Stores.traced (stores : Stores σ ω) : Stores σ (ω × List (Event σ)) :=
  stores.logging .store

def Session.traced (s : Session σ ω) : Session σ (ω × List (Event σ)) :=
  ⟨s.engine.traced, s.stores.traced⟩

theorem StoreRequest.makeAll_traced (stores : Stores σ ω) (store : σ) (calls : List StoreRequest)
    (world : ω) (log : List (Event σ)) :
    ∃ made, made <+: calls ∧
      (((makeAll stores store calls).runOn world).1 = .ok () → made = calls) ∧
      (makeAll stores.traced store calls).runOn (world, log) =
        (((makeAll stores store calls).runOn world).1,
          (((makeAll stores store calls).runOn world).2, log ++ made.map (.store store))) := by
  induction calls generalizing world log with
  | nil =>
    refine ⟨[], List.nil_prefix, fun _ => rfl, ?_⟩
    rw [List.map_nil, List.append_nil]
    rfl
  | cons call rest ih =>
    have hcall : discard (call.perform stores.traced store) =
        (discard (call.perform stores store)).recorded (.store store call) := by
      rw [Stores.traced, perform_logging]
      exact Action.map_recorded _ _ _
    rw [makeAll_cons, makeAll_cons, hcall, Action.runOn_bind, Action.runOn_bind,
      Action.runOn_recorded]
    rcases (discard (call.perform stores store)).runOn world with ⟨e | _, middle⟩
    · exact ⟨[call], ⟨rest, rfl⟩, nofun, rfl⟩
    · obtain ⟨made, hmade, hall, hrest⟩ := ih middle (log ++ [.store store call])
      refine ⟨call :: made, (List.prefix_cons_inj call).mpr hmade, fun h => ?_, ?_⟩
      · rw [hall h]
      · rw [List.append_assoc] at hrest
        exact hrest

private theorem View.publish_traced (stores : Stores σ ω) (view : View σ) (world : ω)
    (log : List (Event σ)) :
    ∃ calls, (∀ event ∈ calls, event.changesStore = true) ∧
      (view.publish stores.traced).runOn (world, log) =
        (((view.publish stores).runOn world).1,
          (((view.publish stores).runOn world).2, log ++ calls)) := by
  obtain ⟨made, hmade, -, hrun⟩ := StoreRequest.makeAll_traced stores view.cache.store
    (view.dropCalls ++ view.writeCalls) world log
  refine ⟨made.map (.store view.cache.store), ?_, ?_⟩
  · rw [List.forall_mem_map]
    exact fun call hc => view.changes_of_mem_calls (hmade.subset hc)
  · rw [publish_eq_makeAll, publish_eq_makeAll, hrun]

private theorem View.commitEach_traced (stores : Stores σ ω) (order : CommitOrder σ)
    (views : List (View σ)) (world : ω) (log : List (Event σ)) :
    ∃ calls, (∀ event ∈ calls, event.changesStore = true) ∧
      commitEach stores.traced order views (world, log) =
        ((commitEach stores order views world).1,
          ((commitEach stores order views world).2, log ++ calls)) := by
  induction views generalizing world log with
  | nil => exact ⟨[], List.forall_mem_nil _, by rw [List.append_nil]; rfl⟩
  | cons view rest ih =>
    obtain ⟨calls, hcalls, hview⟩ := (order.arrange view).publish_traced stores world log
    obtain ⟨later, hlater, hrest⟩ :=
      ih (((order.arrange view).publish stores).runOn world).2 (log ++ calls)
    refine ⟨calls ++ later, List.forall_mem_append.mpr ⟨hcalls, hlater⟩, ?_⟩
    rw [commitEach, commitEach, runOn_commitIn, runOn_commitIn, hview]
    dsimp only
    rw [hrest, List.append_assoc]

namespace Session

/-- Settles what is staged: drops it, or else commits every view, in the given order. The results
of the commits, and the world afterwards. -/
def settle (s : Session σ ω) (order : CommitOrder σ) (tx : Transaction σ) (dropped : Bool)
    (world : ω) : List (Except Error Unit) × ω :=
  if dropped then ([], world) else View.commitEach s.stores order (order.views tx.views) world

theorem settle_traced (s : Session σ ω) (order : CommitOrder σ) (tx : Transaction σ)
    (dropped : Bool) (world : ω) (log : List (Event σ)) :
    ∃ calls, (∀ event ∈ calls, event.changesStore = true) ∧ (dropped = true → calls = []) ∧
      s.traced.settle order tx dropped (world, log) =
        ((s.settle order tx dropped world).1,
          ((s.settle order tx dropped world).2, log ++ calls)) := by
  cases dropped with
  | true => exact ⟨[], List.forall_mem_nil _, fun _ => rfl, by rw [List.append_nil]; rfl⟩
  | false =>
    obtain ⟨calls, hcalls, hrun⟩ :=
      View.commitEach_traced s.stores order (order.views tx.views) world log
    exact ⟨calls, hcalls, nofun, hrun⟩

theorem runOn_closeIn (s : Session σ ω) (order : CommitOrder σ) (forceRollback : Bool)
    (tx : Transaction σ) (world : ω) :
    (s.closeIn order forceRollback).runOn (tx, world) =
      match s.settle order tx forceRollback world with
      | (results, middle) =>
        match (s.engine.close forceRollback).runOn middle with
        | (closed, after) => (firstFailure (closed :: results), (tx.next, after)) := by
  rw [closeIn, Action.runOn_ofFunction, settle]
  cases forceRollback with
  | true =>
    simp only [if_true, runOn_onWorld]
    rcases (s.engine.close true).runOn world with ⟨_ | _, _⟩ <;> rfl
  | false =>
    simp only [Bool.false_eq_true, if_false, Transaction.runOn_commitIn_eq, runOn_onWorld]
    rcases View.commitEach s.stores order (order.views tx.views) world with ⟨results, middle⟩
    dsimp only
    rcases (s.engine.close false).runOn middle with ⟨_ | _, _⟩ <;> rfl

/-- A commit settles what is staged once the engine has committed. -/
theorem runOn_commitIn_settle (s : Session σ ω) (order : CommitOrder σ) (required : Bool)
    (tx : Transaction σ) (world : ω) :
    (s.commitIn order required).runOn (tx, world) =
      match (s.engine.commit required).runOn world with
      | (.error e, after) => (.error e, (tx, after))
      | (.ok (), middle) =>
        match s.settle order tx false middle with
        | (results, after) => (firstFailure results, (tx.next, after)) := by
  rw [runOn_commitIn]
  rcases (s.engine.commit required).runOn world with ⟨e | _, middle⟩
  · rfl
  · exact Transaction.runOn_commitIn_eq s.stores order tx middle

/-- How the operations that end a transaction go, in a world and after the calls of a log. -/
structure Ends (s : Session σ ω) (order : CommitOrder σ) (tx : Transaction σ) (world : ω)
    (log : List (Event σ)) : Prop where
  /-- A rollback asks the engine, once, and answers what the engine answers. Whether or not that is
  a failure, it drops what is staged if that is required, and else keeps it. -/
  rollback : ∀ required,
    (s.traced.rollback required).runOn (tx, (world, log)) =
      match (s.engine.rollback required).runOn world with
      | (result, after) => (result,
        (if required then tx.next else tx, (after, log ++ [.engine (.rollback required)])))
  /-- A close settles what is staged, then closes the engine, once and whatever became of the views.
  Nothing stays staged. The engine's failure counts before that of the views. -/
  close : ∀ forceRollback, ∃ calls,
    (∀ event ∈ calls, event.changesStore = true) ∧ (forceRollback = true → calls = []) ∧
    (s.traced.closeIn order forceRollback).runOn (tx, (world, log)) =
      match s.settle order tx forceRollback world with
      | (results, middle) =>
        match (s.engine.close forceRollback).runOn middle with
        | (closed, after) => (firstFailure (closed :: results),
          (tx.next, (after, log ++ calls ++ [.engine (.close forceRollback)])))
  /-- A commit commits the engine, once and before anything else. If that fails, everything stays
  staged, and no store is called. Else every view is committed and nothing stays staged. -/
  commit : ∀ required, ∃ calls, (∀ event ∈ calls, event.changesStore = true) ∧
    (s.traced.commitIn order required).runOn (tx, (world, log)) =
      match (s.engine.commit required).runOn world with
      | (.error e, after) => (.error e, (tx, (after, log ++ [.engine (.commit required)])))
      | (.ok (), middle) =>
        match s.settle order tx false middle with
        | (results, after) =>
          (firstFailure results, (tx.next, (after, log ++ [.engine (.commit required)] ++ calls)))
  /-- Where nothing stays staged, the session goes on as a new one. -/
  next : tx.next.isEmpty = true ∧
    ∀ script start, s.traced.history script (tx.next, start) =
      (s.traced.history script (.first, start)).map (.later (tx.generation + 1))

/-- However the engine and the stores behave, and whichever of their steps fail, the operations that
end a transaction go as they should. -/
theorem ends_whatever_fails (s : Session σ ω) (order : CommitOrder σ) (tx : Transaction σ)
    (world : ω) (log : List (Event σ)) : s.Ends order tx world log where
  rollback required := by cases required <;> rfl
  close forceRollback := by
    obtain ⟨calls, hcalls, hdropped, hsettle⟩ := s.settle_traced order tx forceRollback world log
    refine ⟨calls, hcalls, hdropped, ?_⟩
    rw [runOn_closeIn, hsettle]
    rfl
  commit required := by
    have hengine : (s.traced.engine.commit required).runOn (world, log) =
        (((s.engine.commit required).runOn world).1, (((s.engine.commit required).runOn world).2,
          log ++ [.engine (.commit required)])) := rfl
    rw [runOn_commitIn_settle, hengine]
    rcases (s.engine.commit required).runOn world with ⟨e | _, middle⟩
    · exact ⟨[], List.forall_mem_nil _, rfl⟩
    · obtain ⟨calls, hcalls, -, hsettle⟩ :=
        s.settle_traced order tx false middle (log ++ [.engine (.commit required)])
      refine ⟨calls, hcalls, ?_⟩
      dsimp only
      rw [hsettle]
  next := ⟨rfl, fun script start => s.traced.history_next script tx start⟩

/-- A view cannot be committed and the engine cannot be closed: the engine's failure is answered. -/
example :
    let users : NamedCache Nat := ⟨"users", 0⟩
    let ada := Key.ofComponents [.text "ada"]
    let engine : Engine Nat (Snapshot Bool Nat × Shelf) :=
      { switch.beside with close := fun _ => .ofResult (.error .closed) }
    let s : Session Nat (Snapshot Bool Nat × Shelf) := ⟨engine, Shelf.stores.beside⟩
    let tx := (Transaction.first.clear users).putText users ada "1"
    let shelf : Shelf := [.map { MapStore.new .empty with failure := some "down" }]
    let outcome := (s.traced.closeIn .staged false).runOn (tx, ((⟨false, false, 0⟩, shelf), []))
    (s.settle .staged tx false (⟨false, false, 0⟩, shelf)).1 =
        [.error (.cache (.reported "down"))] ∧
      outcome.1 = .error .closed ∧ outcome.2.1 = tx.next ∧
      outcome.2.2.2 = [.store 0 .clear, .engine (.close false)] :=
  ⟨rfl, rfl, rfl, rfl⟩

end Session
end ResultCache
