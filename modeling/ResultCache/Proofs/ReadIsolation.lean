import Mathlib.Data.List.Induction
import ResultCache.Proofs.Interleaving

/-! # Reads see the own transaction and the shared store -/

namespace ResultCache

variable {ι σ ω α : Type}

namespace Operation

def clears (id : String) : Operation σ α → Bool
  | clear cache => cache.id = id
  | _ => false

/-- What the operation, if it is a write or a removal, leaves under a key of the cache with an id. A
value without a stored form is not written. -/
def leaves (id : String) (key : Key) : Operation σ α → Option (Option String)
  | put cache other payload =>
    if cache.id = id ∧ other = key then payload.encode.toOption.map some else none
  | remove cache other => if cache.id = id ∧ other = key then some none else none
  | _ => none

def current (ops : List (Operation σ α)) : List (Operation σ α) :=
  ops.foldl (fun sinceEnd op => if op.ends then [] else sinceEnd ++ [op]) []

/-- What every step keeps of a transaction and its operations since the last end holds after every
script. -/
theorem current_induction {motive : Transaction σ → List (Operation σ α) → Prop}
    (start : motive .first []) (step : ∀ tx sinceEnd op, motive tx sinceEnd →
      motive (op.after tx) (if op.ends then [] else sinceEnd ++ [op]))
    (ops : List (Operation σ α)) : motive (ops.foldl after .first) (current ops) := by
  induction ops using List.reverseRecOn with
  | nil => exact start
  | append_singleton rest op ih =>
    rw [current, List.foldl_append, List.foldl_append]
    exact step _ _ op ih

/-- What is read under a key after some operations of the same transaction: nothing once the cache
has been cleared, else what the latest write or removal left there, else the shared text. -/
def seen (ops : List (Operation σ α)) (id : String) (key : Key) (shared : Option String) :
    Option String :=
  if ops.any (clears id) then none else (ops.filterMap (leaves id key)).getLast?.getD shared

/-- A transaction shows what its operations left in each cache. -/
structure Shows (tx : Transaction σ) (ops : List (Operation σ α)) : Prop where
  cleared : ∀ cache, (tx.viewOf cache).cleared = ops.any (clears cache.id)
  fate : ∀ cache key, (tx.viewOf cache).cleared = false →
    (tx.viewOf cache).fate key = (ops.filterMap (leaves cache.id key)).getLast?
  apart : ∀ cache key, (tx.viewOf cache).removals.contains key = true →
    (tx.viewOf cache).writes.find? key = none

private theorem shows_of_empty {tx : Transaction σ} (h : tx.views = Table.empty) :
    Shows tx ([] : List (Operation σ α)) := by
  have hfresh : ∀ cache, tx.viewOf cache = View.fresh cache := by
    intro cache
    rw [Transaction.viewOf, h]
    rfl
  constructor
  · intro cache
    rw [hfresh]
    rfl
  · intro cache key _
    rw [hfresh]
    rfl
  · intro cache key hr
    rw [hfresh] at hr
    cases hr

theorem viewOf_stage (tx : Transaction σ) (cache other : NamedCache σ) (f : View σ → View σ) :
    (tx.stage cache f).viewOf other =
      if other.id = cache.id then f (tx.viewOf cache) else tx.viewOf other := by
  by_cases h : other.id = cache.id
  · simp [Transaction.stage, Transaction.viewOf, h]
  · rw [if_neg h, Transaction.viewOf_stage_of_ne tx f h]

private theorem Shows.stage {tx : Transaction σ} {ops : List (Operation σ α)} (h : Shows tx ops)
    {cache : NamedCache σ} {f : View σ → View σ} {op : Operation σ α}
    (other : ∀ id, id ≠ cache.id → op.clears id = false ∧ ∀ key, op.leaves id key = none)
    (cleared : (f (tx.viewOf cache)).cleared =
      ((tx.viewOf cache).cleared || op.clears cache.id))
    (fate : ∀ key, (f (tx.viewOf cache)).cleared = false → (f (tx.viewOf cache)).fate key =
      (op.leaves cache.id key).or ((tx.viewOf cache).fate key))
    (apart : ∀ key, (f (tx.viewOf cache)).removals.contains key = true →
      (f (tx.viewOf cache)).writes.find? key = none) :
    Shows (tx.stage cache f) (ops ++ [op]) := by
  have latest : ∀ id key, ((ops ++ [op]).filterMap (leaves id key)).getLast? =
      (op.leaves id key).or (ops.filterMap (leaves id key)).getLast? := by
    intro id key
    cases hl : op.leaves id key <;> simp [List.filterMap_append, hl]
  have once : ∀ id, (ops ++ [op]).any (clears id) = (ops.any (clears id) || op.clears id) := by
    intro id
    simp
  constructor
  · intro target
    rw [viewOf_stage, once]
    by_cases ht : target.id = cache.id
    · rw [if_pos ht, cleared, h.cleared cache, ht]
    · rw [if_neg ht, h.cleared target, (other target.id ht).1, Bool.or_false]
  · intro target key
    rw [viewOf_stage, latest]
    by_cases ht : target.id = cache.id
    · rw [if_pos ht, ht]
      intro hc
      have hbefore : (tx.viewOf cache).cleared = false := by
        rw [cleared, Bool.or_eq_false_iff] at hc
        exact hc.1
      rw [fate key hc, h.fate cache key hbefore]
    · rw [if_neg ht, (other target.id ht).2 key]
      exact h.fate target key
  · intro target key
    rw [viewOf_stage]
    by_cases ht : target.id = cache.id
    · rw [if_pos ht]
      exact apart key
    · rw [if_neg ht]
      exact h.apart target key

private theorem Shows.after {tx : Transaction σ} {ops : List (Operation σ α)} (h : Shows tx ops)
    (op : Operation σ α) : Shows (op.after tx) (if op.ends then [] else ops ++ [op]) := by
  cases op with
  | clear cache =>
    refine h.stage (fun id hid => ⟨?_, fun _ => rfl⟩) ?_ ?_ ?_
    · simp [clears, Ne.symm hid]
    · simp [View.clear, clears]
    · exact fun _ hc => by cases hc
    · exact fun _ hr => by cases hr
  | put cache key payload =>
    rw [Operation.after]
    cases he : payload.encode with
    | error e =>
      -- Nothing is staged, and the operation leaves nothing either.
      have hnone : ∀ id other, (put cache key payload : Operation σ α).leaves id other = none := by
        intro id other
        simp [leaves, he, Except.toOption]
      have hclears : ∀ id, (put cache key payload : Operation σ α).clears id = false :=
        fun _ => rfl
      refine ⟨fun target => ?_, fun target other hc => ?_, h.apart⟩
      · rw [h.cleared target]
        simp [ends, hclears]
      · rw [h.fate target other hc]
        simp [ends, hnone]
    | ok text =>
      refine h.stage (fun id hid => ⟨rfl, fun other => ?_⟩) ?_ ?_ ?_
      · simp [leaves, Ne.symm hid]
      · simp [View.put, clears]
      · intro other _
        rw [View.fate_put]
        by_cases ho : other = key
        · simp [leaves, ho, he, Except.toOption]
        · simp [leaves, ho, Ne.symm ho]
      · intro other hr
        rw [View.put, Table.contains_erase] at hr
        simp only [Bool.and_eq_true, Bool.not_eq_true', decide_eq_false_iff_not] at hr
        rw [View.put, Table.find?_set, if_neg hr.1]
        exact h.apart cache other hr.2
  | remove cache key =>
    refine h.stage (f := fun view => view.remove key) (fun id hid => ⟨rfl, fun other => ?_⟩)
      ?_ ?_ ?_
    · simp [leaves, Ne.symm hid]
    · simp [View.remove, clears]
    · intro other _
      rw [View.fate_remove]
      by_cases ho : other = key
      · simp [leaves, ho]
      · simp [leaves, ho, Ne.symm ho]
    · intro other hr
      by_cases ho : other = key
      · simp [View.remove, ho]
      · rw [View.remove, Table.contains_set, decide_eq_false ho, Bool.false_or] at hr
        rw [View.remove, Table.find?_erase, if_neg ho]
        exact h.apart cache other hr
  | get cache key reader =>
    refine h.stage (f := id) (fun id _ => ⟨rfl, fun _ => rfl⟩) ?_ ?_ ?_
    · simp [clears]
    · simp [leaves]
    · exact h.apart cache
  | commit order => exact shows_of_empty rfl
  | rollback => exact shows_of_empty rfl

theorem shows_current (ops : List (Operation σ α)) :
    Shows (ops.foldl Operation.after Transaction.first) (current ops) :=
  current_induction (shows_of_empty rfl) (fun _ _ op h => h.after op) ops

section Read

variable [DecidableEq σ] {stores : Stores σ ω} (maps : MapFamily stores)

/-- What a transaction reads on a healthy store, from its own operations and the shared text. -/
theorem getText_of_shows {tx : Transaction σ} {ops : List (Operation σ α)} (h : Shows tx ops)
    {cache : NamedCache σ} (hcache : (tx.viewOf cache).cache = cache) (key : Key) {world : ω}
    (healthy : maps.healthy world cache.store) :
    ((Transaction.getText stores cache key).runOn (tx, world)).1 =
      .ok (seen ops cache.id key (maps.held world cache.store key.storageKey)) := by
  have hget := View.answer_get maps (h.apart cache key) (hcache.symm ▸ healthy)
  rw [Transaction.runOn_getText, hget, hcache, h.cleared cache, seen]
  cases hc : ops.any (clears cache.id) with
  | true => rfl
  | false => rw [h.fate cache key ((h.cleared cache).trans hc)]

end Read

end Operation

/-! ## Reads in an interleaved run -/

namespace System

variable [DecidableEq ι]

def ofOwner (who : ι) (script : List (ι × Operation σ α)) : List (Operation σ α) :=
  script.filterMap fun turn => if turn.1 = who then some turn.2 else none

private theorem ofOwner_cons (who : ι) (turn : ι × Operation σ α)
    (rest : List (ι × Operation σ α)) :
    ofOwner who (turn :: rest) =
      if turn.1 = who then turn.2 :: ofOwner who rest else ofOwner who rest := by
  rw [ofOwner, List.filterMap_cons]
  by_cases h : turn.1 = who
  · rw [if_pos h, if_pos h]
    rfl
  · rw [if_neg h, if_neg h]
    rfl

theorem transactions_run (stores : Stores σ ω) (system : System ι σ ω)
    (script : List (ι × Operation σ α)) (who : ι) :
    (system.run stores script).transactions who =
      (ofOwner who script).foldl Operation.after (system.transactions who) := by
  induction script generalizing system with
  | nil => rfl
  | cons turn rest ih =>
    obtain ⟨other, op⟩ := turn
    change ((system.step stores (other, op)).run stores rest).transactions who = _
    rw [ih, transactions_step, ofOwner_cons]
    by_cases ho : other = who
    · rw [if_pos ho, ho, Function.update_self, List.foldl_cons]
    · rw [if_neg ho, Function.update_of_ne (Ne.symm ho)]

/-! ### Leaving out what others do not commit -/

/-- Whether the next transaction end of an owner is a commit. -/
def commitsNext (who : ι) : List (ι × Operation σ α) → Bool
  | [] => false
  | (other, op) :: rest =>
    if other = who ∧ op.ends = true then op.commits else commitsNext who rest

/-- A script without what owners other than the given one do in transactions that they do not
commit. -/
def settled (who : ι) : List (ι × Operation σ α) → List (ι × Operation σ α)
  | [] => []
  | turn :: rest =>
    if turn.1 = who ∨ commitsNext turn.1 (turn :: rest) = true then turn :: settled who rest
    else settled who rest

private theorem ofOwner_settled (who : ι) (script : List (ι × Operation σ α)) :
    ofOwner who (settled who script) = ofOwner who script := by
  induction script with
  | nil => rfl
  | cons turn rest ih =>
    rw [settled, ofOwner_cons]
    by_cases ho : turn.1 = who
    · rw [if_pos (.inl ho), ofOwner_cons, if_pos ho, if_pos ho, ih]
    · rw [if_neg ho]
      split
      · rw [ofOwner_cons, if_neg ho, ih]
      · exact ih

private theorem mem_of_mem_settled {who : ι} {script : List (ι × Operation σ α)}
    {turn : ι × Operation σ α} (h : turn ∈ settled who script) : turn ∈ script := by
  induction script with
  | nil => exact h
  | cons first rest ih =>
    rw [settled] at h
    split at h
    · rcases List.mem_cons.mp h with h | h
      · exact h ▸ List.mem_cons_self
      · exact List.mem_cons_of_mem _ (ih h)
    · exact List.mem_cons_of_mem _ (ih h)

private theorem commitsNext_of_ne {who other : ι} (h : other ≠ who) (op : Operation σ α)
    (rest : List (ι × Operation σ α)) :
    commitsNext who ((other, op) :: rest) = commitsNext who rest := by
  rw [commitsNext, if_neg fun hm => h hm.1]

private theorem commitsNext_of_not_ends (who : ι) {op : Operation σ α} (h : op.ends = false)
    (rest : List (ι × Operation σ α)) :
    commitsNext who ((who, op) :: rest) = commitsNext who rest := by
  rw [commitsNext, if_neg fun hm => Bool.false_ne_true (h.symm.trans hm.2)]

/-- A full run next to a run of the settled script, before the rest of the script: the stores keep
the same; owners whose transactions count have the same views, and the others have none in the
settled run. -/
structure Follows [DecidableEq σ] {stores : Stores σ ω} (maps : MapFamily stores) (who : ι)
    (rest : List (ι × Operation σ α)) (full part : System ι σ ω) : Prop where
  held : maps.held full.world = maps.held part.world
  same : ∀ other, other = who ∨ commitsNext other rest = true →
    (full.transactions other).views = (part.transactions other).views
  none : ∀ other, ¬ (other = who ∨ commitsNext other rest = true) →
    (part.transactions other).views = Table.empty

theorem views_after {tx other : Transaction σ} (h : tx.views = other.views) (op : Operation σ α) :
    (op.after tx).views = (op.after other).views := by
  cases op with
  | put cache key payload =>
    rw [Operation.after, Operation.after]
    cases payload.encode with
    | error e => exact h
    | ok text =>
      simp only [Transaction.putText, Transaction.stage, Transaction.viewOf, h]
  | clear cache =>
    simp only [Operation.after, Transaction.clear, Transaction.stage, Transaction.viewOf, h]
  | remove cache key =>
    simp only [Operation.after, Transaction.remove, Transaction.stage, Transaction.viewOf, h]
  | get cache key reader =>
    simp only [Operation.after, Transaction.stage, Transaction.viewOf, h]
  | commit order => rfl
  | rollback => rfl

section Follows

variable [DecidableEq σ] {stores : Stores σ ω} {maps : MapFamily stores}
  {caches : Set (NamedCache σ)} {keys : Set Key} {full part : System ι σ ω} {who : ι}
  {rest : List (ι × Operation σ α)}

private theorem Follows.keep {mover : ι} {op : Operation σ α}
    (h : Follows maps who ((mover, op) :: rest) full part)
    (counts : mover = who ∨ commitsNext mover ((mover, op) :: rest) = true)
    (soundFull : full.Sound maps caches keys) (soundPart : part.Sound maps caches keys) :
    Follows maps who rest (full.step stores (mover, op)) (part.step stores (mover, op)) := by
  have hviews := h.same mover counts
  constructor
  · by_cases hc : ∃ order, op = .commit order
    · obtain ⟨order, rfl⟩ := hc
      rw [soundFull.held_commit, soundPart.held_commit, hviews, h.held]
    · have hne : ∀ order, op ≠ .commit order := fun order he => hc ⟨order, he⟩
      rw [held_step maps full mover hne, held_step maps part mover hne, h.held]
  · intro other ho
    rw [transactions_step, transactions_step]
    by_cases hm : other = mover
    · rw [hm, Function.update_self, Function.update_self]
      exact views_after hviews op
    · rw [Function.update_of_ne hm, Function.update_of_ne hm]
      exact h.same other (by rwa [commitsNext_of_ne (Ne.symm hm)])
  · intro other ho
    rw [transactions_step]
    by_cases hm : other = mover
    · -- The transaction that counts has just ended, so the next one is empty.
      subst hm
      rw [Function.update_self]
      cases he : op.ends with
      | true =>
        rw [Operation.after_of_ends he]
        rfl
      | false => exact absurd (by rwa [commitsNext_of_not_ends other he] at counts) ho
    · rw [Function.update_of_ne hm]
      exact h.none other (by rwa [commitsNext_of_ne (Ne.symm hm)])

private theorem Follows.skip {mover : ι} {op : Operation σ α}
    (h : Follows maps who ((mover, op) :: rest) full part)
    (counts : ¬ (mover = who ∨ commitsNext mover ((mover, op) :: rest) = true)) :
    Follows maps who rest (full.step stores (mover, op)) part := by
  have hne : ∀ order, op ≠ .commit order := by
    rintro order rfl
    exact counts (.inr (by simp [commitsNext, Operation.ends, Operation.commits]))
  constructor
  · rw [held_step maps full mover hne, h.held]
  · intro other ho
    rw [transactions_step]
    by_cases hm : other = mover
    · subst hm
      rw [Function.update_self, h.none other counts]
      cases he : op.ends with
      | true =>
        rw [Operation.after_of_ends he]
        rfl
      | false => exact absurd (by rwa [commitsNext_of_not_ends other he]) counts
    · rw [Function.update_of_ne hm]
      exact h.same other (by rwa [commitsNext_of_ne (Ne.symm hm)])
  · intro other ho
    by_cases hm : other = mover
    · rw [hm]
      exact h.none mover counts
    · exact h.none other (by rwa [commitsNext_of_ne (Ne.symm hm)])

theorem Follows.held_run (oneStore : ∀ a ∈ caches, ∀ b ∈ caches, a.id = b.id → a.store = b.store)
    (h : Follows maps who rest full part) (within : ∀ turn ∈ rest, turn.2.Within caches keys)
    (soundFull : full.Sound maps caches keys) (soundPart : part.Sound maps caches keys) :
    maps.held (full.run stores rest).world =
      maps.held (part.run stores (settled who rest)).world := by
  induction rest generalizing full part with
  | nil => exact h.held
  | cons turn rest ih =>
    have hturn : turn.2.Within caches keys := within turn (by simp)
    have hrest : ∀ turn ∈ rest, turn.2.Within caches keys := fun t ht =>
      within t (List.mem_cons_of_mem _ ht)
    rw [settled]
    split
    · rename_i counts
      exact ih (h.keep counts soundFull soundPart) hrest (soundFull.step oneStore hturn)
        (soundPart.step oneStore hturn)
    · rename_i counts
      exact ih (h.skip counts) hrest (soundFull.step oneStore hturn) soundPart

end Follows

/-- After every interleaved run an owner reads what its own operations since its transaction began
leave of what the shared store keeps at that moment, and it reads the same if other owners'
uncommitted operations are left out of the run. -/
theorem getText_run_eq_seen [DecidableEq σ] {stores : Stores σ ω} (maps : MapFamily stores)
    {caches : Set (NamedCache σ)}
    (oneStore : ∀ a ∈ caches, ∀ b ∈ caches, a.id = b.id → a.store = b.store)
    (script : List (ι × Operation σ α)) (within : ∀ turn ∈ script, turn.2.Within caches Set.univ)
    (world : ω) (healthy : ∀ cache ∈ caches, maps.healthy world cache.store)
    (who : ι) (cache : NamedCache σ) (known : cache ∈ caches) (key : Key) :
    let system := (start world).run stores script
    let alone := (start world).run stores (settled who script)
    ((Transaction.getText stores cache key).runOn (system.transactions who, system.world)).1 =
        .ok (Operation.seen (Operation.current (ofOwner who script)) cache.id key
          (maps.held system.world cache.store key.storageKey)) ∧
      ((Transaction.getText stores cache key).runOn (system.transactions who, system.world)).1 =
        ((Transaction.getText stores cache key).runOn (alone.transactions who, alone.world)).1 := by
  have read : ∀ script : List (ι × Operation σ α),
      (∀ turn ∈ script, turn.2.Within caches Set.univ) →
      ((Transaction.getText stores cache key).runOn
        (((start world).run stores script).transactions who,
          ((start world).run stores script).world)).1 =
        .ok (Operation.seen (Operation.current (ofOwner who script)) cache.id key
          (maps.held ((start world).run stores script).world cache.store key.storageKey)) := by
    intro script hscript
    have hsound : ((start world).run stores script).Sound maps caches Set.univ :=
      (sound_start healthy).run oneStore hscript
    have hcache := Transaction.viewOf_cache (hsound.within who) oneStore known
    have hshows := Operation.shows_current (ofOwner who script)
    rw [transactions_run] at hcache ⊢
    exact Operation.getText_of_shows maps hshows hcache key (hsound.healthy cache known)
  have hsettled : ∀ turn ∈ settled who script, turn.2.Within caches Set.univ := fun turn ht =>
    within turn (mem_of_mem_settled ht)
  have follows : Follows maps who script (start world : System ι σ ω) (start world) :=
    ⟨rfl, fun _ _ => rfl, fun _ _ => rfl⟩
  have hheld := follows.held_run oneStore within (sound_start healthy) (sound_start healthy)
  refine ⟨read script within, ?_⟩
  rw [read script within, read _ hsettled, ofOwner_settled, hheld]

open Operation in
/-- The second owner reads what the first one committed, not what it did since. -/
theorem getText_run_of_two_owners :
    let users : NamedCache Nat := ⟨"users", 0⟩
    let ada := Key.ofComponents [.text "ada"]
    let bob := Key.ofComponents [.text "bob"]
    let shelf : Shelf := [.map (.new .empty)]
    let script : List (Bool × Operation Nat Bool) :=
      [(true, put users ada (.json .null)), (false, put users bob (.json .null)),
        (true, commit .staged), (false, get users ada Json.boolean), (true, clear users),
        (false, remove users bob), (true, put users ada (.json (.bool true)))]
    let system := (start shelf).run Shelf.stores script
    let alone := (start shelf).run Shelf.stores
      ([(true, put users ada (.json .null)), (false, put users bob (.json .null)),
        (true, commit .staged), (false, get users ada Json.boolean),
        (false, remove users bob)] : List (Bool × Operation Nat Bool))
    ((Transaction.getText Shelf.stores users ada).runOn
        (system.transactions false, system.world)).1 = .ok (some "null") ∧
      ((Transaction.getText Shelf.stores users ada).runOn
          (system.transactions false, system.world)).1 =
        ((Transaction.getText Shelf.stores users ada).runOn
          (alone.transactions false, alone.world)).1 := by
  intro users ada bob shelf script system alone
  have within : ∀ turn ∈ script, turn.2.Within {users} Set.univ := by
    simp [script, Operation.Within]
  have healthy : ∀ cache ∈ ({users} : Set (NamedCache Nat)),
      Shelf.maps.healthy shelf cache.store := by
    rintro cache rfl
    exact ⟨_, rfl, fun _ => rfl⟩
  obtain ⟨hseen, halone⟩ :=
    getText_run_eq_seen Shelf.maps (oneStore_singleton users) script within shelf healthy false
      users rfl ada
  exact ⟨hseen.trans (congrArg Except.ok (by decide +kernel)), halone⟩

end System
end ResultCache
