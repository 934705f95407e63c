import ResultCache.Proofs.Keeps
import ResultCache.Proofs.Maps
import ResultCache.Proofs.Requests
import ResultCache.Proofs.StoreRequests

/-!
# Engines beside stores

An engine and the stores each act on a part of a common world that the other never touches.
-/

namespace ResultCache

variable {σ δ ω α β : Type}

namespace Action

def onFirst (action : Action δ α) : Action (δ × ω) α :=
  action.within Prod.fst fun first world => (first, world.2)

def onSecond (action : Action ω α) : Action (δ × ω) α :=
  action.within Prod.snd fun second world => (world.1, second)

theorem runOn_onFirst (action : Action δ α) (first : δ) (second : ω) :
    action.onFirst.runOn (first, second) =
      ((action.runOn first).1, ((action.runOn first).2, second)) := rfl

end Action

/-- What a handler of rows does to the first part of a world. -/
def besideHandler (handle : RowHandler δ) : RowHandler (δ × ω) := fun row world =>
  (handle row world.1, world.2)

/-- An engine on the first part of a world. Handlers act on that part as well. -/
def Engine.beside (engine : Engine σ δ) : Engine σ (δ × ω) where
  query st params bounds handler := .ofFunction fun world =>
    (engine.query st params bounds
      (handler.map fun handle row first => (handle row (first, world.2)).1)).onFirst.runOn world
  cursor st params bounds := (engine.cursor st params bounds).onFirst
  update st params := (engine.update st params).onFirst
  flushStatements := engine.flushStatements.onFirst
  commit required := (engine.commit required).onFirst
  rollback required := (engine.rollback required).onFirst
  close forceRollback := (engine.close forceRollback).onFirst
  isClosed world := engine.isClosed world.1
  environment world := engine.environment world.1
  lookupKey st params bounds world := engine.lookupKey st params bounds world.1
  isCached st key world := engine.isCached st key world.1
  clearLocalCache world := (engine.clearLocalCache world.1, world.2)

def Stores.beside (stores : Stores σ ω) : Stores σ (δ × ω) :=
  stores.changed fun _ _ action => action.onSecond

def Request.beside : Request σ δ → Request σ (δ × ω)
  | .query st params bounds handler => .query st params bounds (handler.map besideHandler)
  | .cursor st params bounds => .cursor st params bounds
  | .update st params => .update st params
  | .flushStatements => .flushStatements
  | .commit required order => .commit required order
  | .rollback required => .rollback required
  | .close forceRollback order => .close forceRollback order
  | .clearLocalCache => .clearLocalCache

/-- The session of an engine and of stores that live apart. -/
def Session.over (engine : Engine σ δ) (stores : Stores σ ω) : Session σ (δ × ω) :=
  ⟨engine.beside, stores.beside⟩

theorem Engine.runOn_query_beside (engine : Engine σ δ) (st : Statement σ) (params : Parameters)
    (bounds : RowBounds) (handler : Option (RowHandler δ)) (first : δ) (second : ω) :
    (engine.beside.query st params bounds (handler.map besideHandler)).runOn (first, second) =
      (((engine.query st params bounds handler).runOn first).1,
        (((engine.query st params bounds handler).runOn first).2, second)) := by
  cases handler <;> rfl

theorem Session.of_query_over {engine : Engine σ δ} {stores : Stores σ ω} {st : Statement σ}
    {params : Parameters} {bounds : RowBounds} (handler : Option (RowHandler δ))
    {before after : δ × ω} {result : Except Error (List Row)}
    (asked : ((Session.over engine stores).engine.query st params bounds
      (handler.map besideHandler)).runOn before = (result, after)) :
    (engine.query st params bounds handler).runOn before.1 = (result, after.1) ∧
      after.2 = before.2 := by
  rw [show (Session.over engine stores).engine = engine.beside from rfl,
    Engine.runOn_query_beside] at asked
  cases asked
  exact ⟨rfl, rfl⟩

namespace Transaction

variable (stores : Stores σ ω) (tx : Transaction σ) (first : δ) (second : ω)

private theorem first_getText_beside (cache : NamedCache σ) (key : Key) :
    ((getText stores.beside cache key).runOn (tx, (first, second))).2.2.1 = first := by
  refine keeps_getText (P := fun world => world.1 = first) ?_ cache key tx (first, second) rfl
  exact fun _ _ _ h => h

theorem first_commitIn_beside (order : CommitOrder σ) :
    ((commitIn stores.beside order).runOn (tx, (first, second))).2.2.1 = first := by
  refine keeps_commitIn (P := fun world => world.1 = first) ?_ order (first, second) rfl
  intro _ view _
  exact ⟨fun _ h => h, fun _ _ h => h, fun _ _ _ _ h => h⟩

end Transaction

variable [DecidableEq σ] {stores : Stores σ ω}

private theorem ActsOn.onSecond {held : ω → σ → Texts} {healthy : ω → σ → Prop} {store : σ}
    {call : Action ω α} {answer : Texts → α} {change : Texts → Texts}
    (h : ActsOn held healthy store call answer change) :
    ActsOn (fun world : δ × ω => held world.2) (fun world => healthy world.2) store
      call.onSecond answer change where
  keeps world := h.keeps world.2
  answers world := h.answers world.2
  changes world := h.changes world.2

def MapFamily.beside (maps : MapFamily stores) :
    MapFamily (stores.beside : Stores σ (δ × ω)) where
  held world := maps.held world.2
  healthy world := maps.healthy world.2
  get store name := (maps.get store name).onSecond
  put store name text := (maps.put store name text).onSecond
  remove store name := (maps.remove store name).onSecond
  clear store := (maps.clear store).onSecond

namespace Transaction

theorem getText_beside (maps : MapFamily stores) (cache : NamedCache σ) (key : Key)
    (tx : Transaction σ) (first : δ) (second : ω) :
    ∃ seen after, (getText stores.beside cache key).runOn (tx, (first, second)) =
        (seen, (tx.stage cache id, (first, after))) ∧
      maps.held after = maps.held second ∧
      ∀ store, maps.healthy second store → maps.healthy after store := by
  have hfirst := first_getText_beside stores tx first second cache key
  obtain ⟨hheld, hhealthy⟩ := View.world_get maps.beside (tx.viewOf cache) key (first, second)
  rw [runOn_getText] at hfirst ⊢
  exact ⟨_, _, Prod.ext rfl (Prod.ext rfl (Prod.ext hfirst rfl)), hheld, hhealthy⟩

theorem of_get_beside (maps : MapFamily stores) {reader : Json.Reader α} {cache : NamedCache σ}
    {key : Key} {tx tx' : Transaction σ} {world world' : δ × ω} {found : Except Error (Option α)}
    (read : (get stores.beside reader cache key).runOn (tx, world) = (found, (tx', world'))) :
    world'.1 = world.1 ∧ maps.held world'.2 = maps.held world.2 ∧
      (∀ store, maps.healthy world.2 store → maps.healthy world'.2 store) ∧
      ∀ value, found = .ok (some value) → ∃ text,
        ((getText stores.beside cache key).runOn (tx, world)).1 = .ok (some text) ∧
          decodeStored reader text = .ok value := by
  obtain ⟨seen, after, hget, hheld, hhealthy⟩ :=
    getText_beside maps cache key tx world.1 world.2
  rw [runOn_get, hget] at read
  rcases seen with e | _ | text
  · cases read
    exact ⟨rfl, hheld, hhealthy, nofun⟩
  · cases read
    exact ⟨rfl, hheld, hhealthy, nofun⟩
  · cases read
    refine ⟨rfl, hheld, hhealthy, fun value hvalue => ⟨text, congrArg Prod.fst hget, ?_⟩⟩
    cases hdecode : decodeStored reader text with
    | error e =>
      rw [hdecode] at hvalue
      cases hvalue
    | ok found =>
      rw [hdecode] at hvalue
      cases hvalue
      rfl

end Transaction

end ResultCache
