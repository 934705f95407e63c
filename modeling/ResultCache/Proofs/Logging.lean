import ResultCache.Proofs.Keeps
import ResultCache.Proofs.StoreRequests

/-! # Steps that are written down -/

namespace ResultCache

variable {σ ω α β χ : Type}

namespace Action

/-- A step that is written down as a call, whether or not it fails. -/
def recorded (action : Action ω α) (call : χ) : Action (ω × List χ) α :=
  .ofFunction fun world =>
    match action.runOn world.1 with
    | (result, after) => (result, (after, world.2 ++ [call]))

theorem runOn_recorded (action : Action ω α) (call : χ) (world : ω) (log : List χ) :
    (action.recorded call).runOn (world, log) =
      ((action.runOn world).1, ((action.runOn world).2, log ++ [call])) := rfl

theorem map_recorded (f : α → β) (action : Action ω α) (call : χ) :
    f <$> action.recorded call = (f <$> action).recorded call := by
  funext world
  change (f <$> action.recorded call).runOn world = ((f <$> action).recorded call).runOn world
  rw [runOn_map, recorded, recorded, runOn_ofFunction, runOn_ofFunction, runOn_map]

/-- Beyond the given calls only such as have a property have been written down. -/
def Extends (Q : χ → Prop) (calls : List χ) (world : ω × List χ) : Prop :=
  ∃ more, world.2 = calls ++ more ∧ ∀ call ∈ more, Q call

variable {Q : χ → Prop}

theorem extends_self (world : ω × List χ) : Extends Q world.2 world := ⟨[], by simp, by simp⟩

theorem keeps_recorded (action : Action ω α) {call : χ} (h : Q call) (calls : List χ) :
    (action.recorded call).Keeps (Extends Q calls) := by
  intro world ⟨more, hmore, hq⟩
  refine ⟨more ++ [call], ?_, fun other ho => ?_⟩
  · change world.2 ++ [call] = _
    rw [hmore, List.append_assoc]
  · rcases List.mem_append.mp ho with ho | ho
    · exact hq other ho
    · exact List.mem_singleton.mp ho ▸ h

end Action

/-- Stores that write down every call as an event. -/
def Stores.logging (event : σ → StoreRequest → χ) (stores : Stores σ ω) : Stores σ (ω × List χ) :=
  stores.changed fun store call action => action.recorded (event store call)

theorem StoreRequest.perform_logging (event : σ → StoreRequest → χ) (stores : Stores σ ω)
    (store : σ) (call : StoreRequest) :
    call.perform (stores.logging event) store =
      (call.perform stores store).recorded (event store call) :=
  perform_changed (fun f place request action => Action.map_recorded f action (event place request))
    stores store call

/-- The calls that reading a key makes: none if what is staged settles it. -/
def View.reads (view : View σ) (key : Key) : List StoreRequest :=
  if view.cleared || view.removals.contains key || view.writes.contains key then []
  else [.get key.storageKey]

namespace View

theorem mem_reads {view : View σ} {key : Key} {call : StoreRequest} :
    call ∈ view.reads key ↔ (view.cleared = false ∧ view.removals.contains key = false ∧
      view.writes.find? key = none) ∧ call = .get key.storageKey := by
  have hwrites : view.writes.contains key = (view.writes.find? key).isSome := rfl
  rw [reads, hwrites]
  cases view.cleared <;> cases view.removals.contains key <;> cases view.writes.find? key <;> simp

theorem length_reads_le (view : View σ) (key : Key) : (view.reads key).length ≤ 1 := by
  rw [reads]
  split
  · exact Nat.zero_le 1
  · exact Nat.le_refl 1

theorem runOn_get_logging (event : σ → StoreRequest → χ) (stores : Stores σ ω) (view : View σ)
    (key : Key) (world : ω) (log : List χ) :
    (view.get (stores.logging event) key).runOn (world, log) =
      match (view.get stores key).runOn world with
      | (result, after) =>
        (result, (after, log ++ (view.reads key).map (event view.cache.store))) := by
  have hwrites : view.writes.contains key = (view.writes.find? key).isSome := rfl
  rw [View.get, View.get, reads, hwrites]
  cases view.cleared || view.removals.contains key with
  | true => simp
  | false =>
    cases view.writes.find? key with
    | some text => simp
    | none => rfl

end View

namespace Transaction

variable (event : σ → StoreRequest → χ) (stores : Stores σ ω) (cache : NamedCache σ) (key : Key)
  (tx : Transaction σ) (world : ω) (log : List χ)

theorem runOn_get_logging (reader : Json.Reader α) :
    (get (stores.logging event) reader cache key).runOn (tx, (world, log)) =
      match (get stores reader cache key).runOn (tx, world) with
      | (result, (tx', after)) => (result, (tx', (after, log ++
          ((tx.viewOf cache).reads key).map (event (tx.viewOf cache).cache.store)))) := by
  rw [runOn_get, runOn_get, runOn_getText, runOn_getText, View.runOn_get_logging]
  rcases ((tx.viewOf cache).get stores key).runOn world with ⟨_ | _ | text, after⟩ <;> rfl

end Transaction
end ResultCache
