import ResultCache.View

/-!
# Transactions

A transaction owns the staged views of the named caches that it touched, one for each id. A view
is made when its id is first used, over the store of the handle that was used then. Committing or
rolling back ends the transaction and begins the next one.
-/

namespace ResultCache

/-- An order in which a commit carries out what is staged: the views in any order, and the removals
and the writes of each view in any order. -/
structure CommitOrder (σ : Type) where
  /-- The views, in the order in which they are visited. -/
  views : Table String (View σ) → List (View σ)
  /-- A view with its removals and its writes in the order in which they are carried out. -/
  arrange : View σ → View σ
  views_perm : ∀ table, (views table).Perm (table.entries.map Prod.snd)
  arrange_same : ∀ view, (arrange view).SameStaged view

/-- The order in which everything was staged. -/
def CommitOrder.staged {σ : Type} : CommitOrder σ where
  views table := table.entries.map Prod.snd
  arrange view := view
  views_perm _ := .refl _
  arrange_same view := .refl view

/-- The views of the current transaction, and how many transactions ended before it. -/
structure Transaction (σ : Type) where
  generation : Nat
  views : Table String (View σ)

namespace Transaction

variable {σ ω α : Type}

def first : Transaction σ := ⟨0, Table.empty⟩

/-- The transaction that follows, with no views. -/
def next (tx : Transaction σ) : Transaction σ := ⟨tx.generation + 1, Table.empty⟩

/-- The view of a cache: the one under its id, or a fresh one over the given handle. -/
def viewOf (tx : Transaction σ) (cache : NamedCache σ) : View σ :=
  (tx.views.find? cache.id).getD (View.fresh cache)

/-- Changes the view of a cache, which is made if there is none. -/
def stage (tx : Transaction σ) (cache : NamedCache σ) (change : View σ → View σ) :
    Transaction σ :=
  { tx with views := tx.views.set cache.id (change (tx.viewOf cache)) }

/-- The ids of the caches that were touched, in ascending order. -/
def staged (tx : Transaction σ) : List String :=
  tx.views.keys.mergeSort fun a b => a ≤ b

def isEmpty (tx : Transaction σ) : Bool := tx.views.isEmpty

def clear (tx : Transaction σ) (cache : NamedCache σ) : Transaction σ :=
  tx.stage cache View.clear

def remove (tx : Transaction σ) (cache : NamedCache σ) (key : Key) : Transaction σ :=
  tx.stage cache fun view => view.remove key

def putText (tx : Transaction σ) (cache : NamedCache σ) (key : Key) (text : String) :
    Transaction σ :=
  tx.stage cache fun view => view.put key text

/-- Stages the write of a value. A value without a stored form changes nothing. -/
def put (tx : Transaction σ) (cache : NamedCache σ) (key : Key) (payload : Payload) :
    Except Error (Transaction σ) :=
  payload.encode.map fun text => tx.putText cache key text

/-- What the transaction sees under a key, as text. The cache counts as touched even if reading
fails. -/
def getText (stores : Stores σ ω) (cache : NamedCache σ) (key : Key) :
    Action (Transaction σ × ω) (Option String) :=
  Action.ofFunction fun (tx, world) =>
    match ((tx.viewOf cache).get stores key).runOn world with
    | (result, world) => (result, (tx.stage cache id, world))

/-- What the transaction sees under a key, as a value. -/
def get (stores : Stores σ ω) (reader : Json.Reader α) (cache : NamedCache σ) (key : Key) :
    Action (Transaction σ × ω) (Option α) := do
  match ← getText stores cache key with
  | none => pure none
  | some text => some <$> Action.ofResult (decodeStored reader text)

theorem runOn_getText (stores : Stores σ ω) (cache : NamedCache σ) (key : Key)
    (tx : Transaction σ) (world : ω) :
    (getText stores cache key).runOn (tx, world) =
      ((((tx.viewOf cache).get stores key).runOn world).1,
        (tx.stage cache id, (((tx.viewOf cache).get stores key).runOn world).2)) := rfl

theorem runOn_get (stores : Stores σ ω) (reader : Json.Reader α) (cache : NamedCache σ) (key : Key)
    (state : Transaction σ × ω) :
    (get stores reader cache key).runOn state =
      match (getText stores cache key).runOn state with
      | (.ok none, state) => (.ok none, state)
      | (.ok (some text), state) => ((decodeStored reader text).map some, state)
      | (.error e, state) => (.error e, state) := by
  rw [get, Action.runOn_bind]
  rcases (getText stores cache key).runOn state with ⟨_ | _ | text, state⟩
  · rfl
  · rfl
  · exact Action.runOn_map some (Action.ofResult (decodeStored reader text)) state

/-- Publishes views one after the other, all of them even if some fail. Answers the first
failure. -/
def publishAll (stores : Stores σ ω) : List (View σ) → ω → Option Error × ω
  | [], world => (none, world)
  | view :: views, world =>
    match (view.publish stores).runOn world with
    | (result, world) =>
      match publishAll stores views world with
      | (later, world) =>
        match result with
        | .ok () => (later, world)
        | .error e => (some e, world)

/-- Commits every view, in the given order, and begins the next transaction. -/
def commitIn (stores : Stores σ ω) (order : CommitOrder σ) : Action (Transaction σ × ω) Unit :=
  Action.ofFunction fun (tx, world) =>
    match publishAll stores ((order.views tx.views).map order.arrange) world with
    | (none, world) => (.ok (), (tx.next, world))
    | (some e, world) => (.error e, (tx.next, world))

theorem runOn_commitIn (stores : Stores σ ω) (order : CommitOrder σ) (tx : Transaction σ)
    (world : ω) :
    (commitIn stores order).runOn (tx, world) =
      match publishAll stores ((order.views tx.views).map order.arrange) world with
      | (failure, world) => (failure.elim (.ok ()) .error, (tx.next, world)) := by
  rw [commitIn, Action.runOn_ofFunction]
  dsimp only
  rcases publishAll stores ((order.views tx.views).map order.arrange) world with ⟨_ | _, _⟩ <;> rfl

/-- Commits every view, in the order in which they were made, and begins the next transaction. -/
def commit (stores : Stores σ ω) : Action (Transaction σ × ω) Unit :=
  commitIn stores CommitOrder.staged

/-- Drops every view, touches no store, and begins the next transaction. -/
def rollback (tx : Transaction σ) : Transaction σ := tx.next

@[simp] theorem viewOf_stage_self (tx : Transaction σ) (cache : NamedCache σ)
    (change : View σ → View σ) :
    (tx.stage cache change).viewOf cache = change (tx.viewOf cache) := by
  simp [stage, viewOf]

theorem viewOf_stage_of_ne (tx : Transaction σ) {cache other : NamedCache σ}
    (change : View σ → View σ) (h : other.id ≠ cache.id) :
    (tx.stage cache change).viewOf other = tx.viewOf other := by
  simp [stage, viewOf, h]

end Transaction
end ResultCache
