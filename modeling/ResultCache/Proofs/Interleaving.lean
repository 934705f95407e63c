import ResultCache.Proofs.Commit

/-!
# Interleaved transactions

What an operation does to the views of its owner never depends on the stores.
-/

namespace ResultCache

variable {ι σ ω α : Type}

/-- What the owner of a transaction can ask for. Reads are of type `α`, and a commit comes with the
order in which it carries out what is staged. -/
inductive Operation (σ α : Type) where
  | clear (cache : NamedCache σ)
  | put (cache : NamedCache σ) (key : Key) (payload : Payload)
  | remove (cache : NamedCache σ) (key : Key)
  | get (cache : NamedCache σ) (key : Key) (reader : Json.Reader α)
  | commit (order : CommitOrder σ)
  | rollback

namespace Operation

/-- Carries out an operation. There is an answer where something was read. -/
def perform (stores : Stores σ ω) : Operation σ α → Action (Transaction σ × ω) (Option α)
  | clear cache => .ofFunction fun (tx, world) => (.ok none, (tx.clear cache, world))
  | put cache key payload => .ofFunction fun (tx, world) =>
    match tx.put cache key payload with
    | .ok staged => (.ok none, (staged, world))
    | .error e => (.error e, (tx, world))
  | remove cache key => .ofFunction fun (tx, world) => (.ok none, (tx.remove cache key, world))
  | get cache key reader => Transaction.get stores reader cache key
  | commit order => do
    Transaction.commitIn stores order
    pure none
  | rollback => .ofFunction fun (tx, world) => (.ok none, (tx.rollback, world))

def ends : Operation σ α → Bool
  | commit _ | rollback => true
  | _ => false

def commits : Operation σ α → Bool
  | commit _ => true
  | _ => false

def Within (caches : Set (NamedCache σ)) (keys : Set Key) : Operation σ α → Prop
  | clear cache => cache ∈ caches
  | put cache key _ | remove cache key | get cache key _ => cache ∈ caches ∧ key ∈ keys
  | commit _ | rollback => True

def after (tx : Transaction σ) : Operation σ α → Transaction σ
  | clear cache => tx.clear cache
  | put cache key payload =>
    match payload.encode with
    | .ok text => tx.putText cache key text
    | .error _ => tx
  | remove cache key => tx.remove cache key
  | get cache _ _ => tx.stage cache id
  | commit _ | rollback => tx.next

theorem after_of_ends {op : Operation σ α} (h : op.ends = true) (tx : Transaction σ) :
    op.after tx = tx.next := by
  cases op <;> first | rfl | cases h

theorem state_get (stores : Stores σ ω) (reader : Json.Reader α) (cache : NamedCache σ) (key : Key)
    (tx : Transaction σ) (world : ω) :
    ((Transaction.get stores reader cache key).runOn (tx, world)).2 =
      (tx.stage cache id, (((tx.viewOf cache).get stores key).runOn world).2) := by
  rw [Transaction.runOn_get, Transaction.runOn_getText]
  rcases ((tx.viewOf cache).get stores key).runOn world with ⟨_ | _ | _, _⟩ <;> rfl

theorem state_commit (stores : Stores σ ω) (order : CommitOrder σ) (state : Transaction σ × ω) :
    (((commit order : Operation σ α).perform stores).runOn state).2 =
      ((Transaction.commitIn stores order).runOn state).2 := by
  rw [perform, Action.runOn_bind]
  rcases (Transaction.commitIn stores order).runOn state with ⟨_ | _, _⟩ <;> rfl

theorem transaction_perform (stores : Stores σ ω) (op : Operation σ α) (tx : Transaction σ)
    (world : ω) : ((op.perform stores).runOn (tx, world)).2.1 = op.after tx := by
  cases op with
  | clear cache => rfl
  | put cache key payload =>
    simp only [perform, Action.runOn_ofFunction, Transaction.put, after]
    cases payload.encode <;> rfl
  | remove cache key => rfl
  | get cache key reader =>
    rw [perform, state_get]
    rfl
  | commit order =>
    rw [state_commit, Transaction.runOn_commitIn]
    rfl
  | rollback => rfl

section Held

variable [DecidableEq σ] {stores : Stores σ ω} (maps : MapFamily stores)

theorem world_perform {op : Operation σ α} (h : ∀ order, op ≠ .commit order) (tx : Transaction σ)
    (world : ω) :
    maps.held ((op.perform stores).runOn (tx, world)).2.2 = maps.held world ∧
      ∀ other, maps.healthy world other →
        maps.healthy ((op.perform stores).runOn (tx, world)).2.2 other := by
  cases op with
  | clear cache => exact ⟨rfl, fun _ h => h⟩
  | put cache key payload =>
    simp only [perform, Action.runOn_ofFunction, Transaction.put]
    cases payload.encode <;> exact ⟨rfl, fun _ h => h⟩
  | remove cache key => exact ⟨rfl, fun _ h => h⟩
  | get cache key reader =>
    rw [perform, state_get]
    exact View.world_get maps _ key world
  | commit order => exact absurd rfl (h order)
  | rollback => exact ⟨rfl, fun _ h => h⟩

end Held

theorem after_within {caches : Set (NamedCache σ)} {keys : Set Key} {tx : Transaction σ}
    (hw : tx.Within caches keys)
    (oneStore : ∀ a ∈ caches, ∀ b ∈ caches, a.id = b.id → a.store = b.store) {op : Operation σ α}
    (hop : op.Within caches keys) : (op.after tx).Within caches keys := by
  cases op with
  | clear cache =>
    exact Transaction.within_stage hw oneStore hop (fun _ => rfl) (View.within_clear _ _)
  | put cache key payload =>
    have hview := Transaction.viewOf_within hw cache
    rw [after]
    cases payload.encode with
    | error e => exact hw
    | ok text =>
      exact Transaction.within_stage hw oneStore hop.1 (fun _ => rfl) (hview.put hop.2 text)
  | remove cache key =>
    have hview := Transaction.viewOf_within hw cache
    exact Transaction.within_stage (f := fun view => view.remove key) hw oneStore hop.1
      (fun _ => rfl) (hview.remove hop.2)
  | get cache key reader =>
    exact Transaction.within_stage hw oneStore hop.1 (fun _ => rfl)
      (Transaction.viewOf_within hw cache)
  | commit order => exact Transaction.within_next tx caches keys
  | rollback => exact Transaction.within_next tx caches keys

end Operation

/-- The transactions of all owners, and the world with the stores that they share. -/
structure System (ι σ ω : Type) where
  transactions : ι → Transaction σ
  world : ω

namespace System

def start (world : ω) : System ι σ ω := ⟨fun _ => .first, world⟩

variable [DecidableEq ι]

def become (system : System ι σ ω) (who : ι) (state : Transaction σ × ω) : System ι σ ω :=
  ⟨Function.update system.transactions who state.1, state.2⟩

def step (stores : Stores σ ω) (system : System ι σ ω) (turn : ι × Operation σ α) :
    System ι σ ω :=
  system.become turn.1
    ((turn.2.perform stores).runOn (system.transactions turn.1, system.world)).2

/-- The owners carry out their operations in the given order. -/
def run (stores : Stores σ ω) (system : System ι σ ω) (script : List (ι × Operation σ α)) :
    System ι σ ω :=
  script.foldl (step stores) system

theorem transactions_step (stores : Stores σ ω) (system : System ι σ ω) (who : ι)
    (op : Operation σ α) : (system.step stores (who, op)).transactions =
      Function.update system.transactions who (op.after (system.transactions who)) := by
  rw [step, become, Operation.transaction_perform]

/-- The state of a run: the stores of the given caches are healthy, and the transactions are about
those caches and the given keys. -/
structure Sound [DecidableEq σ] {stores : Stores σ ω} (maps : MapFamily stores)
    (caches : Set (NamedCache σ)) (keys : Set Key) (system : System ι σ ω) : Prop where
  within : ∀ who, (system.transactions who).Within caches keys
  healthy : ∀ cache ∈ caches, maps.healthy system.world cache.store

section Sound

variable [DecidableEq σ] {stores : Stores σ ω} {maps : MapFamily stores}
  {caches : Set (NamedCache σ)} {keys : Set Key} {system : System ι σ ω}

omit [DecidableEq ι] in
theorem sound_start {world : ω} (healthy : ∀ cache ∈ caches, maps.healthy world cache.store) :
    (start world : System ι σ ω).Sound maps caches keys :=
  ⟨fun _ => Transaction.within_first caches keys, healthy⟩

theorem held_step (maps : MapFamily stores) (system : System ι σ ω) (who : ι)
    {op : Operation σ α} (h : ∀ order, op ≠ .commit order) :
    maps.held (system.step stores (who, op)).world = maps.held system.world :=
  (Operation.world_perform maps h (system.transactions who) system.world).1

theorem Sound.held_commit (h : system.Sound maps caches keys) (who : ι) (order : CommitOrder σ) :
    maps.held (system.step stores (who, (.commit order : Operation σ α))).world =
      publishedViews ((order.views (system.transactions who).views).map order.arrange)
        (maps.held system.world) := by
  obtain ⟨after, hrun, hheld, -⟩ :=
    Transaction.commitIn_of_healthy maps (h.within who) order system.world h.healthy
  rw [step, become, Operation.state_commit, hrun, ← hheld]

theorem Sound.step (h : system.Sound maps caches keys)
    (oneStore : ∀ a ∈ caches, ∀ b ∈ caches, a.id = b.id → a.store = b.store)
    {turn : ι × Operation σ α} (hop : turn.2.Within caches keys) :
    (system.step stores turn).Sound maps caches keys := by
  obtain ⟨who, op⟩ := turn
  have keeps : ∀ other, maps.healthy system.world other →
      maps.healthy (system.step stores (who, op)).world other := by
    by_cases hc : ∃ order, op = .commit order
    · obtain ⟨order, rfl⟩ := hc
      obtain ⟨after, hrun, -, hkeeps⟩ :=
        Transaction.commitIn_of_healthy maps (h.within who) order system.world h.healthy
      rw [System.step, become, Operation.state_commit, hrun]
      exact hkeeps
    · exact (Operation.world_perform maps (fun order he => hc ⟨order, he⟩)
        (system.transactions who) system.world).2
  refine ⟨fun other => ?_, fun cache hm => keeps _ (h.healthy cache hm)⟩
  rw [transactions_step]
  by_cases ho : other = who
  · rw [ho, Function.update_self]
    exact Operation.after_within (h.within who) oneStore hop
  · rw [Function.update_of_ne ho]
    exact h.within other

theorem Sound.run (h : system.Sound maps caches keys)
    (oneStore : ∀ a ∈ caches, ∀ b ∈ caches, a.id = b.id → a.store = b.store)
    {script : List (ι × Operation σ α)} (within : ∀ turn ∈ script, turn.2.Within caches keys) :
    (system.run stores script).Sound maps caches keys := by
  induction script generalizing system with
  | nil => exact h
  | cons turn rest ih =>
    exact ih (h.step oneStore (within turn (by simp)))
      fun t ht => within t (List.mem_cons_of_mem _ ht)

end Sound

end System
end ResultCache
