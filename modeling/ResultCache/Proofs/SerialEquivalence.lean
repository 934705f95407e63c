import ResultCache.Proofs.Interleaving

/-! # Interleaved transactions are equivalent to serial ones -/

namespace ResultCache

variable {ι σ ω α : Type}

namespace Operation

/-- Carries out an operation on the store itself, without staging it. -/
def directly (stores : Stores σ ω) : Operation σ α → Action ω Unit
  | clear cache => stores.clear cache.store
  | put cache key payload => stores.write cache.store key.storageKey payload
  | remove cache key => discard (stores.remove cache.store key.storageKey)
  | _ => pure ()

def applied (stores : Stores σ ω) (ops : List (Operation σ α)) (world : ω) : ω :=
  ops.foldl (fun world op => ((op.directly stores).runOn world).2) world

/-- The operations of the transactions that end in a commit, one transaction after the other in the
order of the commits. Each owner comes with what is pending in its transaction. -/
def committed [DecidableEq ι] (pending : ι → List (Operation σ α)) :
    List (ι × Operation σ α) → List (Operation σ α)
  | [] => []
  | (who, op) :: rest =>
    match op with
    | commit _ => pending who ++ committed (Function.update pending who []) rest
    | rollback => committed (Function.update pending who []) rest
    | op => committed (Function.update pending who (pending who ++ [op])) rest

section Effect

variable [DecidableEq σ]

/-- What the stores keep after an operation has been carried out directly. -/
def effect (held : σ → Texts) : Operation σ α → σ → Texts
  | clear cache => Function.update held cache.store fun _ => none
  | put cache key payload =>
    match payload.encode with
    | .ok text =>
      Function.update held cache.store
        (Function.update (held cache.store) key.storageKey (some text))
    | .error _ => held
  | remove cache key =>
    Function.update held cache.store (Function.update (held cache.store) key.storageKey none)
  | _ => held

private theorem held_directly {stores : Stores σ ω} (maps : MapFamily stores)
    {caches : Set (NamedCache σ)} {keys : Set Key} {op : Operation σ α}
    (hop : op.Within caches keys) (world : ω)
    (healthy : ∀ cache ∈ caches, maps.healthy world cache.store) :
    maps.held ((op.directly stores).runOn world).2 = op.effect (maps.held world) ∧
      ∀ other, maps.healthy world other →
        maps.healthy ((op.directly stores).runOn world).2 other := by
  cases op with
  | clear cache =>
    have h := maps.clear cache.store
    exact ⟨h.held_eq (healthy cache hop), h.keeps world⟩
  | put cache key payload =>
    rw [directly, Stores.write, Action.runOn_bind, Action.runOn_ofResult, effect]
    cases payload.encode with
    | error e => exact ⟨rfl, fun _ h => h⟩
    | ok text =>
      have h := maps.put cache.store key.storageKey text
      exact ⟨h.held_eq (healthy cache hop.1), h.keeps world⟩
  | remove cache key =>
    obtain ⟨after, hrun, hheld, hkeeps⟩ := MapFamily.makes_call
      (maps.remove cache.store key.storageKey) world (healthy cache hop.1)
    rw [directly, hrun]
    exact ⟨hheld, hkeeps⟩
  | get cache key reader => exact ⟨rfl, fun _ h => h⟩
  | commit order => exact ⟨rfl, fun _ h => h⟩
  | rollback => exact ⟨rfl, fun _ h => h⟩

private theorem held_applied {stores : Stores σ ω} (maps : MapFamily stores)
    {caches : Set (NamedCache σ)} {keys : Set Key} (ops : List (Operation σ α))
    (hops : ∀ op ∈ ops, op.Within caches keys) (world : ω)
    (healthy : ∀ cache ∈ caches, maps.healthy world cache.store) :
    maps.held (applied stores ops world) = ops.foldl effect (maps.held world) ∧
      ∀ other, maps.healthy world other → maps.healthy (applied stores ops world) other := by
  induction ops generalizing world with
  | nil => exact ⟨rfl, fun _ h => h⟩
  | cons op rest ih =>
    obtain ⟨hheld, hkeeps⟩ := held_directly maps (hops op (by simp)) world healthy
    obtain ⟨hrest, hkeeps'⟩ := ih (fun o ho => hops o (List.mem_cons_of_mem _ ho)) _
      fun cache hc => hkeeps _ (healthy cache hc)
    refine ⟨?_, fun other h => hkeeps' other (hkeeps other h)⟩
    rw [List.foldl_cons, ← hheld]
    exact hrest

theorem published_after {tx : Transaction σ} {caches : Set (NamedCache σ)} {keys : Set Key}
    (hw : tx.Within caches keys) (sep : Separate caches keys) {op : Operation σ α}
    (hop : op.Within caches keys) (hends : op.ends = false) (held : σ → Texts) :
    (op.after tx).published held = op.effect (tx.published held) := by
  cases op with
  | clear cache =>
    exact Transaction.published_stage hw sep held hop (g := fun _ _ => none) (fun _ => rfl)
      (View.within_clear _ _) fun _ => rfl
  | put cache key payload =>
    have hview := Transaction.viewOf_within hw cache
    rw [after, effect]
    cases payload.encode with
    | error e => rfl
    | ok text =>
      exact Transaction.published_stage hw sep held hop.1
        (g := fun texts => Function.update texts key.storageKey (some text)) (fun _ => rfl)
        (hview.put hop.2 text)
        fun texts => View.published_put hview sep.oneKey texts hop.2 text
  | remove cache key =>
    have hview := Transaction.viewOf_within hw cache
    exact Transaction.published_stage hw sep held hop.1 (f := fun view => view.remove key)
      (g := fun texts => Function.update texts key.storageKey none) (fun _ => rfl)
      (hview.remove hop.2) fun texts => View.published_remove hview sep.oneKey texts hop.2
  | get cache key reader =>
    have hstage := Transaction.published_stage hw sep held hop.1 (f := id) (g := id)
      (fun _ => rfl) (Transaction.viewOf_within hw cache) fun _ => rfl
    rw [id, Function.update_eq_self] at hstage
    exact hstage
  | commit order => cases hends
  | rollback => cases hends

end Effect

/-- A transaction next to the operations that are pending in it: what it will publish is what the
operations do. -/
structure Pending [DecidableEq σ] (tx : Transaction σ) (ops : List (Operation σ α))
    (caches : Set (NamedCache σ)) (keys : Set Key) : Prop where
  within : ∀ op ∈ ops, op.Within caches keys
  published : ∀ held, tx.published held = ops.foldl effect held

section Pending

variable [DecidableEq σ] {caches : Set (NamedCache σ)} {keys : Set Key}

private theorem pending_of_empty {tx : Transaction σ} (h : tx.views = Table.empty) :
    Pending tx ([] : List (Operation σ α)) caches keys where
  within := by simp
  published held := by
    rw [Transaction.published, h]
    rfl

private theorem Pending.stage {tx : Transaction σ} {ops : List (Operation σ α)}
    (h : Pending tx ops caches keys) (hw : tx.Within caches keys) (sep : Separate caches keys)
    {op : Operation σ α} (hop : op.Within caches keys) (hends : op.ends = false) :
    Pending (op.after tx) (ops ++ [op]) caches keys where
  within other ho := by
    rcases List.mem_append.mp ho with ho | ho
    · exact h.within other ho
    · rw [List.mem_singleton.mp ho]
      exact hop
  published held := by
    rw [published_after hw sep hop hends, h.published, List.foldl_append]
    rfl

end Pending

end Operation

namespace System

variable [DecidableEq ι] [DecidableEq σ] {stores : Stores σ ω} {caches : Set (NamedCache σ)}
  {keys : Set Key}

omit [DecidableEq σ] in
private theorem update_both {β γ : Type} {R : β → γ → Prop} {f : ι → β} {g : ι → γ}
    (h : ∀ who, R (f who) (g who)) (who : ι) {a : β} {b : γ} (hab : R a b) :
    ∀ other, R (Function.update f who a other) (Function.update g who b other) := by
  intro other
  by_cases ho : other = who
  · rw [ho, Function.update_self, Function.update_self]
    exact hab
  · rw [Function.update_of_ne ho, Function.update_of_ne ho]
    exact h other

/-- The invariant is that every owner will publish what its pending operations do; a commit lets the
serial run catch up with that owner. -/
theorem held_run_of_pending (maps : MapFamily stores) (sep : Separate caches keys)
    {script : List (ι × Operation σ α)} (within : ∀ turn ∈ script, turn.2.Within caches keys)
    {system : System ι σ ω} (sound : system.Sound maps caches keys)
    {pending : ι → List (Operation σ α)}
    (h : ∀ who, Operation.Pending (system.transactions who) (pending who) caches keys)
    {world : ω} (hheld : maps.held system.world = maps.held world)
    (healthy : ∀ cache ∈ caches, maps.healthy world cache.store) :
    maps.held (system.run stores script).world =
      maps.held (Operation.applied stores (Operation.committed pending script) world) := by
  induction script generalizing system pending world with
  | nil => exact hheld
  | cons turn rest ih =>
    obtain ⟨who, op⟩ := turn
    have hop : op.Within caches keys := within (who, op) (by simp)
    have hrest : ∀ turn ∈ rest, turn.2.Within caches keys := fun turn ht =>
      within turn (List.mem_cons_of_mem _ ht)
    have hsound : (system.step stores (who, op)).Sound maps caches keys :=
      sound.step sep.oneStore hop
    have hpending : ∀ ops, Operation.Pending (op.after (system.transactions who)) ops caches keys →
        ∀ other, Operation.Pending ((system.step stores (who, op)).transactions other)
          (Function.update pending who ops other) caches keys := by
      intro ops hp
      rw [transactions_step]
      exact update_both (R := fun tx ops => Operation.Pending tx ops caches keys) h who hp
    -- A step that is no commit leaves the stores, and with them the serial run, as they were.
    have uncommitted : ∀ ops, (∀ order, op ≠ .commit order) →
        Operation.Pending (op.after (system.transactions who)) ops caches keys →
        maps.held ((system.step stores (who, op)).run stores rest).world =
          maps.held (Operation.applied stores
            (Operation.committed (Function.update pending who ops) rest) world) :=
      fun ops hne hp =>
        ih hrest hsound (hpending ops hp) ((held_step maps system who hne).trans hheld) healthy
    have hstage := (h who).stage (sound.within who) sep hop
    cases op with
    | clear cache => exact uncommitted _ (fun _ => nofun) (hstage rfl)
    | put cache key payload => exact uncommitted _ (fun _ => nofun) (hstage rfl)
    | remove cache key => exact uncommitted _ (fun _ => nofun) (hstage rfl)
    | get cache key reader => exact uncommitted _ (fun _ => nofun) (hstage rfl)
    | rollback => exact uncommitted _ (fun _ => nofun) (Operation.pending_of_empty rfl)
    | commit order =>
      obtain ⟨hserial, hkeeps⟩ :=
        Operation.held_applied maps (pending who) (h who).within world healthy
      have hsplit : Operation.applied stores
          (Operation.committed pending ((who, .commit order) :: rest)) world =
          Operation.applied stores (Operation.committed (Function.update pending who []) rest)
            (Operation.applied stores (pending who) world) := List.foldl_append
      rw [hsplit]
      refine ih hrest hsound (hpending [] (Operation.pending_of_empty rfl)) ?_
        fun cache hc => hkeeps _ (healthy cache hc)
      rw [sound.held_commit, Transaction.published_order (sound.within who) sep,
        (h who).published, hserial, hheld]

/-- After every interleaving of any owners' operations, with every order in which the commits carry
out what is staged, the stores keep what they keep after the committed transactions alone: one
after the other in the order of their commits, with every operation carried out directly. Nothing
that was rolled back or is still pending counts. -/
theorem held_run_eq_held_committed (maps : MapFamily stores) (sep : Separate caches keys)
    (script : List (ι × Operation σ α)) (within : ∀ turn ∈ script, turn.2.Within caches keys)
    (world : ω) (healthy : ∀ cache ∈ caches, maps.healthy world cache.store) :
    maps.held ((start world).run stores script).world =
      maps.held (Operation.applied stores (Operation.committed (fun _ => []) script) world) :=
  held_run_of_pending maps sep within (sound_start healthy)
    (fun _ => Operation.pending_of_empty rfl) rfl healthy

open Operation in
/-- Of two owners' transactions over two stores one is rolled back, one stays open, and two
commit. -/
theorem held_run_of_two_owners :
    let users : NamedCache Nat := ⟨"users", 0⟩
    let orders : NamedCache Nat := ⟨"orders", 1⟩
    let ada := Key.ofComponents [.text "ada"]
    let bob := Key.ofComponents [.text "bob"]
    let shelf : Shelf := [.map (.new .empty), .map (.new .empty)]
    let script : List (Bool × Operation Nat Bool) :=
      [(true, put users ada (.json .null)), (false, put users ada (.json (.bool true))),
        (true, remove users bob), (true, get users bob Json.boolean), (false, clear users),
        (true, put orders bob (.json .null)), (true, commit .staged),
        (false, put users bob (.json (.bool false))), (true, clear orders), (true, rollback),
        (false, commit .staged), (true, remove users bob)]
    Separate {users, orders} {ada, bob} ∧
      Shelf.maps.held ((start shelf).run Shelf.stores script).world =
        Shelf.maps.held (applied Shelf.stores
          [put users ada (.json .null), remove users bob, get users bob Json.boolean,
            put orders bob (.json .null), put users ada (.json (.bool true)), clear users,
            put users bob (.json (.bool false))] shelf) := by
  intro users orders ada bob shelf script
  have sep : Separate {users, orders} {ada, bob} := by
    refine ⟨by simp [users, orders], by simp [users, orders], Set.injOn_pair.mpr fun h => ?_⟩
    exact absurd h (by decide +kernel)
  have within : ∀ turn ∈ script, turn.2.Within {users, orders} {ada, bob} := by
    simp [script, Operation.Within]
  have healthy : ∀ cache ∈ ({users, orders} : Set (NamedCache Nat)),
      Shelf.maps.healthy shelf cache.store := by
    have hnew : (MapStore.new Table.empty).Healthy := fun _ => rfl
    rintro cache (rfl | rfl)
    · exact ⟨_, rfl, hnew⟩
    · exact ⟨_, rfl, hnew⟩
  exact ⟨sep, held_run_eq_held_committed Shelf.maps sep script within shelf healthy⟩

end System
end ResultCache
