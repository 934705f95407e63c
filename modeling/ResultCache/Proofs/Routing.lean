import ResultCache.Proofs.ReadIsolation
import ResultCache.Proofs.TransactionEnds

/-!
# Routing by cache id

The first handle of an id that a transaction uses stands for all.
-/

namespace ResultCache

variable {ι σ ω α : Type}

/-! ## Ids in ascending order -/

private theorem Transaction.staged_perm (tx : Transaction σ) : tx.staged.Perm tx.views.keys :=
  List.mergeSort_perm _ _

private theorem Transaction.staged_ascending (tx : Transaction σ) : tx.staged.Pairwise (· < ·) := by
  have hsorted : tx.staged.Pairwise fun a b => decide (a ≤ b) = true := by
    refine List.pairwise_mergeSort (fun a b c hab hbc => ?_) (fun a b => ?_) tx.views.keys
    · exact decide_eq_true (String.le_trans (of_decide_eq_true hab) (of_decide_eq_true hbc))
    · simpa using String.le_total a b
  have hnodup : tx.staged.Nodup := tx.staged_perm.nodup_iff.mpr tx.views.distinct
  refine (hsorted.and hnodup).imp fun h => ?_
  exact Std.lt_of_le_of_ne (of_decide_eq_true h.1) h.2

/-! ## What reads and commits call on -/

private theorem View.log_get_traced (stores : Stores σ ω) (view : View σ) (key : Key) (world : ω)
    (log : List (Event σ)) :
    ((view.get stores.traced key).runOn (world, log)).2.2 =
      log ++ if view.cleared || view.removals.contains key || view.writes.contains key then []
        else [.store view.cache.store (.get key.storageKey)] := by
  rw [Stores.traced, runOn_get_logging, reads]
  dsimp only
  split
  · rfl
  · rfl

private theorem Transaction.publishAll_cons (stores : Stores σ ω) (view : View σ)
    (views : List (View σ)) (world : ω) :
    (publishAll stores (view :: views) world).2 =
        (publishAll stores views ((view.publish stores).runOn world).2).2 ∧
      ((publishAll stores (view :: views) world).1 = none ↔
        ((view.publish stores).runOn world).1 = .ok () ∧
          (publishAll stores views ((view.publish stores).runOn world).2).1 = none) := by
  rw [publishAll]
  dsimp only
  cases ((view.publish stores).runOn world).1 with
  | ok done => exact ⟨rfl, (and_iff_right rfl).symm⟩
  | error e =>
    refine ⟨rfl, ?_⟩
    simp only [reduceCtorEq, false_and]

/-- A commit of views makes the calls of each of them on its own store: all of them, or else those
up to the first that fails. -/
theorem Transaction.publishAll_traced (stores : Stores σ ω) (views : List (View σ)) (world : ω)
    (log : List (Event σ)) :
    ∃ parts : List (View σ × List StoreRequest), parts.map Prod.fst = views ∧
      (publishAll stores.traced views (world, log)).2.2 =
        log ++ parts.flatMap (fun part => part.2.map (.store part.1.cache.store)) ∧
      ∀ part ∈ parts, part.2 <+: part.1.dropCalls ++ part.1.writeCalls ∧
        ((publishAll stores.traced views (world, log)).1 = none →
          part.2 = part.1.dropCalls ++ part.1.writeCalls) := by
  induction views generalizing world log with
  | nil => exact ⟨[], rfl, (List.append_nil log).symm, nofun⟩
  | cons view rest ih =>
    obtain ⟨made, hmade, hall, hrun⟩ := StoreRequest.makeAll_traced stores view.cache.store
      (view.dropCalls ++ view.writeCalls) world log
    rw [← View.publish_eq_makeAll, ← View.publish_eq_makeAll] at hrun
    rw [← View.publish_eq_makeAll] at hall
    obtain ⟨parts, hviews, hlog, hparts⟩ :=
      ih ((view.publish stores).runOn world).2 (log ++ made.map (.store view.cache.store))
    obtain ⟨hafter, hnone⟩ := publishAll_cons stores.traced view rest (world, log)
    rw [hrun] at hafter hnone
    refine ⟨(view, made) :: parts, by rw [List.map_cons, hviews], ?_, ?_⟩
    · rw [hafter, hlog, List.flatMap_cons, List.append_assoc]
    · rw [hnone]
      refine List.forall_mem_cons.mpr ⟨⟨hmade, fun h => hall h.1⟩, fun part hp => ?_⟩
      exact ⟨(hparts part hp).1, fun h => (hparts part hp).2 h.2⟩

namespace Operation

/-! ## Operations that touch a cache -/

/-- The handle through which an operation touches a cache, if it does. To write a value without a
stored form touches none. -/
def touched : Operation σ α → Option (NamedCache σ)
  | clear cache | remove cache _ | get cache _ _ => some cache
  | put cache _ payload => payload.encode.toOption.map fun _ => cache
  | commit _ | rollback => none

def change : Operation σ α → View σ → View σ
  | clear _, view => view.clear
  | put _ key payload, view => payload.encode.toOption.elim view (view.put key)
  | remove _ key, view => view.remove key
  | get .., view | commit _, view | rollback, view => view

def touches (id : String) (op : Operation σ α) : Bool := op.touched.any (·.id = id)

/-- The first handle with an id through which operations touch a cache. -/
def firstHandle (ops : List (Operation σ α)) (id : String) : Option (NamedCache σ) :=
  (ops.filterMap touched).find? (·.id = id)

/-- The handle that stands for a given one after some operations: the first with its id, or the
handle itself if it would be the first. -/
def handleFor (ops : List (Operation σ α)) (cache : NamedCache σ) : NamedCache σ :=
  (firstHandle ops cache.id).getD cache

/-- What the operations that touch the id of a handle stage against the handle, through whichever
handles they do. -/
def stagedBy (ops : List (Operation σ α)) (cache : NamedCache σ) : View σ :=
  (ops.filter (touches cache.id)).foldl (fun view op => op.change view) (View.fresh cache)

variable {ops : List (Operation σ α)} {op : Operation σ α} {cache : NamedCache σ} {id : String}

private theorem after_of_touched (h : op.touched = some cache) (tx : Transaction σ) :
    op.after tx = tx.stage cache op.change := by
  cases op with
  | clear other =>
    cases h
    rfl
  | put other key payload =>
    rw [touched] at h
    rw [after]
    cases hencode : payload.encode with
    | error e =>
      rw [hencode] at h
      cases h
    | ok text =>
      rw [hencode] at h
      cases h
      simp only [Transaction.putText, Transaction.stage, change, hencode, Except.toOption,
        Option.elim]
  | remove other key =>
    cases h
    rfl
  | get other key reader =>
    cases h
    rfl
  | commit order => cases h
  | rollback => cases h

private theorem after_of_untouched (h : op.touched = none) (goes_on : op.ends = false)
    (tx : Transaction σ) : op.after tx = tx := by
  cases op with
  | put other key payload =>
    rw [touched] at h
    rw [after]
    cases hencode : payload.encode with
    | error e => rfl
    | ok text =>
      rw [hencode] at h
      cases h
  | clear other => cases h
  | remove other key => cases h
  | get other key reader => cases h
  | commit order => cases goes_on
  | rollback => cases goes_on

private theorem cache_change (op : Operation σ α) (view : View σ) :
    (op.change view).cache = view.cache := by
  cases op with
  | put other key payload =>
    rw [change]
    cases payload.encode <;> rfl
  | _ => rfl

private theorem apart_change (op : Operation σ α) {view : View σ} (h : view.Apart) :
    (op.change view).Apart := by
  cases op with
  | clear other => exact View.apart_clear view
  | put other key payload =>
    rw [change]
    cases payload.encode with
    | error e => exact h
    | ok text => exact h.put key text
  | remove other key => exact h.remove key
  | get other key reader => exact h
  | commit order => exact h
  | rollback => exact h

private theorem cache_stagedBy (ops : List (Operation σ α)) (cache : NamedCache σ) :
    (stagedBy ops cache).cache = cache := by
  refine List.foldlRecOn (motive := fun view : View σ => view.cache = cache) _ _ rfl ?_
  exact fun view h op _ => (cache_change op view).trans h

private theorem apart_stagedBy (ops : List (Operation σ α)) (cache : NamedCache σ) :
    (stagedBy ops cache).Apart := by
  refine List.foldlRecOn (motive := View.Apart) _ _ (View.apart_fresh cache) ?_
  exact fun view h op _ => apart_change op h

private theorem stagedBy_append (ops : List (Operation σ α)) (op : Operation σ α)
    (cache : NamedCache σ) :
    stagedBy (ops ++ [op]) cache =
      if op.touches cache.id then op.change (stagedBy ops cache) else stagedBy ops cache := by
  rw [stagedBy, List.filter_append, List.foldl_append]
  cases h : op.touches cache.id <;> simp [h, stagedBy]

private theorem firstHandle_append (ops : List (Operation σ α)) (op : Operation σ α) (id : String) :
    firstHandle (ops ++ [op]) id = (firstHandle ops id).or (op.touched.filter (·.id = id)) := by
  rw [firstHandle, List.filterMap_append, List.find?_append, firstHandle]
  congr 1
  cases h : op.touched <;> simp [h, Option.filter]

private theorem id_of_firstHandle (h : firstHandle ops id = some cache) : cache.id = id := by
  have hid := List.find?_some (p := fun other : NamedCache σ => decide (other.id = id)) h
  exact of_decide_eq_true hid

private theorem firstHandle_isSome_iff :
    (firstHandle ops id).isSome = true ↔ ∃ op ∈ ops, op.touches id = true := by
  rw [firstHandle, List.find?_isSome]
  simp only [List.mem_filterMap, touches, Option.any_eq_true]
  constructor
  · rintro ⟨cache, ⟨op, hop, htouched⟩, hid⟩
    exact ⟨op, hop, cache, htouched, hid⟩
  · rintro ⟨op, hop, cache, htouched, hid⟩
    exact ⟨cache, ⟨op, hop, htouched⟩, hid⟩

private theorem stagedBy_of_untouched (h : firstHandle ops cache.id = none) :
    stagedBy ops cache = View.fresh cache := by
  have hnone : ops.filter (touches cache.id) = [] := by
    refine List.filter_eq_nil_iff.mpr fun op hop htouches => ?_
    have hsome := firstHandle_isSome_iff.mpr ⟨op, hop, htouches⟩
    rw [h] at hsome
    cases hsome
  rw [stagedBy, hnone]
  rfl

/-! ## One transaction -/

/-- The views of a transaction are what its operations stage against the first handle of each
id. -/
def Routed (tx : Transaction σ) (ops : List (Operation σ α)) : Prop :=
  ∀ id, tx.views.find? id = (firstHandle ops id).map (stagedBy ops)

variable {tx : Transaction σ}

private theorem Routed.viewOf (h : Routed tx ops) (cache : NamedCache σ) :
    tx.viewOf cache = stagedBy ops (handleFor ops cache) := by
  rw [Transaction.viewOf, h cache.id, handleFor]
  cases hfirst : firstHandle ops cache.id with
  | some first => rfl
  | none => exact (stagedBy_of_untouched hfirst).symm

private theorem Routed.after (h : Routed tx ops) (op : Operation σ α) :
    Routed (op.after tx) (if op.ends then [] else ops ++ [op]) := by
  cases hends : op.ends with
  | true =>
    rw [after_of_ends hends]
    exact fun id => rfl
  | false =>
    cases htouched : op.touched with
    | none =>
      intro id
      have hid : op.touches id = false := by rw [touches, htouched]; rfl
      rw [after_of_untouched htouched hends, h id]
      simp only [Bool.false_eq_true, if_false, firstHandle_append, htouched, Option.filter_none,
        Option.or_none]
      refine Option.map_congr fun cache hcache => ?_
      rw [stagedBy_append, touches, htouched]
      rfl
    | some cache =>
      intro id
      have hfind : (tx.stage cache op.change).views.find? id =
          if id = cache.id then some (op.change (tx.viewOf cache)) else tx.views.find? id :=
        Table.find?_set _ _ _ _
      rw [after_of_touched htouched, hfind]
      simp only [Bool.false_eq_true, if_false, firstHandle_append, htouched]
      by_cases hid : id = cache.id
      · -- the view of this id is changed, or it is made over the handle
        subst hid
        have hfirst : (firstHandle ops cache.id).or ((some cache).filter (·.id = cache.id)) =
            some (handleFor ops cache) := by
          rw [handleFor]
          cases firstHandle ops cache.id <;> simp [Option.filter]
        have hself : op.touches (handleFor ops cache).id = true := by
          have hsame : (handleFor ops cache).id = cache.id := by
            rw [handleFor]
            cases hcase : firstHandle ops cache.id with
            | none => rfl
            | some first => exact id_of_firstHandle hcase
          rw [hsame, touches, htouched]
          simp
        rw [if_pos rfl, hfirst, Option.map_some, stagedBy_append, if_pos hself, h.viewOf]
      · rw [if_neg hid, h id]
        have hother : (some cache).filter (fun other => decide (other.id = id)) = none := by
          simp [Option.filter, Ne.symm hid]
        rw [hother, Option.or_none]
        refine Option.map_congr fun first hcache => ?_
        have hforeign : op.touches first.id = false := by
          rw [id_of_firstHandle hcache, touches, htouched]
          simp [Ne.symm hid]
        rw [stagedBy_append, if_neg (by rw [hforeign]; exact Bool.false_ne_true)]

theorem routed_current (script : List (Operation σ α)) :
    Routed (script.foldl Operation.after Transaction.first) (current script) :=
  current_induction (fun _ => rfl) (fun _ _ op h => h.after op) script

private theorem Routed.filed (h : Routed tx ops) {view : View σ}
    (hview : tx.views.find? id = some view) :
    view.cache.id = id ∧ firstHandle ops id = some view.cache ∧ view = stagedBy ops view.cache := by
  rw [h id] at hview
  obtain ⟨first, hfirst, rfl⟩ := Option.map_eq_some_iff.mp hview
  rw [cache_stagedBy]
  exact ⟨id_of_firstHandle hfirst, hfirst, rfl⟩

theorem Routed.mem_staged_iff (h : Routed tx ops) (id : String) :
    id ∈ tx.staged ↔ ∃ op ∈ ops, op.touches id = true := by
  rw [tx.staged_perm.mem_iff, Table.mem_keys_iff, Table.contains, h id, Option.isSome_map,
    firstHandle_isSome_iff]

/-! ## The steps of an owner -/

/-- How an owner goes on once some operations have been carried out in its transaction. -/
structure GoesByFirst (stores : Stores σ ω) (ops : List (Operation σ α)) (tx : Transaction σ)
    (world : ω) (log : List (Event σ)) : Prop where
  /-- Every view is filed under the id of its cache, which is the first handle with that id, and
  stages what all operations with the id come to. -/
  views : ∀ id, tx.views.find? id = (firstHandle ops id).map (stagedBy ops) ∧
    ∀ view, tx.views.find? id = some view →
      view.cache.id = id ∧ firstHandle ops id = some view.cache
  /-- The caches of the transaction are those whose ids are touched, each once. -/
  staged : tx.staged.Pairwise (· < ·) ∧ ∀ id, id ∈ tx.staged ↔ ∃ op ∈ ops, op.touches id = true
  /-- To read calls on the store of the first handle with the id, unless the answer is staged. -/
  reads : ∀ cache key reader,
    let view := stagedBy ops (handleFor ops cache)
    (((get cache key reader : Operation σ α).perform stores.traced).runOn
        (tx, (world, log))).2.2.2 =
      log ++ if view.cleared || view.removals.contains key || view.writes.contains key then []
        else [.store (handleFor ops cache).store (.get key.storageKey)]
  /-- A commit calls for every id on the store of its first handle, to carry out what is staged
  under the id: up to a call that fails, and completely if the commit succeeds. -/
  publishes : ∀ order, ∃ parts : List (NamedCache σ × List StoreRequest),
    let outcome := ((commit order : Operation σ α).perform stores.traced).runOn (tx, (world, log))
    (parts.map fun part => part.1.id).Perm tx.staged ∧
    outcome.2.2.2 = log ++ parts.flatMap (fun part => part.2.map (.store part.1.store)) ∧
    ∀ part ∈ parts, firstHandle ops part.1.id = some part.1 ∧
      ∃ calls, (stagedBy ops part.1).StagedCalls calls ∧ part.2 <+: calls ∧
        (outcome.1 = .ok none → part.2 = calls)
  /-- No other operation calls on a store. -/
  quiet : ∀ op : Operation σ α, (∀ cache key reader, op ≠ get cache key reader) →
    (∀ order, op ≠ commit order) →
    ((op.perform stores.traced).runOn (tx, (world, log))).2.2 = (world, log)
  /-- A value without a stored form changes nothing. -/
  refused : ∀ cache key payload e, payload.encode = .error e →
    ((put cache key payload : Operation σ α).perform stores.traced).runOn (tx, (world, log)) =
      (.error e, (tx, (world, log)))

private theorem Routed.ids_perm (h : Routed tx ops) (order : CommitOrder σ) :
    ((order.views tx.views).map fun view => view.cache.id).Perm tx.staged := by
  have hkeys : (tx.views.entries.map Prod.snd).map (fun view => view.cache.id) = tx.views.keys := by
    rw [List.map_map]
    refine List.map_congr_left fun entry he => ?_
    exact (h.filed ((tx.views.find?_eq_some_iff entry.1 entry.2).mpr he)).1
  exact (((order.views_perm tx.views).map _).trans (.of_eq hkeys)).trans tx.staged_perm.symm

private theorem publishAll_of_perform_commit {stores : Stores σ ω} {order : CommitOrder σ}
    {world : ω}
    (hok : (((commit order : Operation σ α).perform stores).runOn (tx, world)).1 = .ok none) :
    (Transaction.publishAll stores ((order.views tx.views).map order.arrange) world).1 = none := by
  rw [perform, Action.runOn_bind, Transaction.runOn_commitIn] at hok
  dsimp only at hok
  cases hfailure :
      (Transaction.publishAll stores ((order.views tx.views).map order.arrange) world).1 with
  | none => rfl
  | some e =>
    rw [hfailure] at hok
    cases hok

theorem Routed.publishes (h : Routed tx ops) (stores : Stores σ ω) (world : ω)
    (log : List (Event σ)) (order : CommitOrder σ) :
    ∃ parts : List (NamedCache σ × List StoreRequest),
      let outcome := ((commit order : Operation σ α).perform stores.traced).runOn (tx, (world, log))
      (parts.map fun part => part.1.id).Perm tx.staged ∧
      outcome.2.2.2 = log ++ parts.flatMap (fun part => part.2.map (.store part.1.store)) ∧
      ∀ part ∈ parts, firstHandle ops part.1.id = some part.1 ∧
        ∃ calls, (stagedBy ops part.1).StagedCalls calls ∧ part.2 <+: calls ∧
          (outcome.1 = .ok none → part.2 = calls) := by
  obtain ⟨made, hviews, hlog, hmade⟩ := Transaction.publishAll_traced stores
    ((order.views tx.views).map order.arrange) world log
  have hsame : ∀ part ∈ made, ∃ id view, tx.views.find? id = some view ∧
      part.1.SameStaged view := by
    intro part hp
    have hm : part.1 ∈ (order.views tx.views).map order.arrange :=
      hviews ▸ List.mem_map_of_mem hp
    obtain ⟨view, hv, harrange⟩ := List.mem_map.mp hm
    obtain ⟨id, hid⟩ := (order.mem_views_iff tx.views).mp hv
    exact ⟨id, view, hid, harrange ▸ order.arrange_same view⟩
  refine ⟨made.map fun part => (part.1.cache, part.2), ?_, ?_, ?_⟩
  · have harranged := congrArg (List.map fun view : View σ => view.cache.id) hviews
    rw [List.map_map, List.map_map] at harranged
    rw [List.map_map]
    refine (List.Perm.of_eq (harranged.trans ?_)).trans (h.ids_perm order)
    exact List.map_congr_left fun view _ => congrArg NamedCache.id (order.arrange_same view).cache
  · rw [state_commit, Transaction.runOn_commitIn, List.flatMap_map]
    exact hlog
  · refine List.forall_mem_map.mpr fun part hp => ?_
    obtain ⟨id, view, hid, same⟩ := hsame part hp
    obtain ⟨hfiled, hfirst, hview⟩ := h.filed hid
    have hcache : part.1.cache = view.cache := same.cache
    refine ⟨by rw [hcache, hfiled, hfirst], _, ?_, (hmade part hp).1, fun hok => ?_⟩
    · rw [hcache, ← hview]
      refine View.stagedCalls_of_sameStaged ?_ same
      exact hview ▸ apart_stagedBy ops view.cache
    · exact (hmade part hp).2 (publishAll_of_perform_commit hok)

theorem Routed.goesByFirst (h : Routed tx ops) (stores : Stores σ ω) (world : ω)
    (log : List (Event σ)) : GoesByFirst stores ops tx world log where
  views id := ⟨h id, fun _ hview => ⟨(h.filed hview).1, (h.filed hview).2.1⟩⟩
  staged := ⟨tx.staged_ascending, h.mem_staged_iff⟩
  reads cache key reader := by
    rw [perform, state_get, h.viewOf]
    have hlog := View.log_get_traced stores (stagedBy ops (handleFor ops cache)) key world log
    rwa [cache_stagedBy] at hlog
  publishes := h.publishes stores world log
  quiet op hget hcommit := by
    cases op with
    | get cache key reader => exact absurd rfl (hget cache key reader)
    | commit order => exact absurd rfl (hcommit order)
    | put cache key payload =>
      simp only [perform, Action.runOn_ofFunction, Transaction.put]
      cases payload.encode <;> rfl
    | clear cache => rfl
    | remove cache key => rfl
    | rollback => rfl
  refused cache key payload e hencode := by
    simp only [perform, Action.runOn_ofFunction, Transaction.put, hencode, Except.map]

end Operation

/-- Whatever the stores do, and however the operations of several owners follow one another, an
owner goes by the first handle of each id that it has used since its last commit or rollback. -/
theorem System.goesByFirst_run [DecidableEq ι] (stores : Stores σ ω)
    (script : List (ι × Operation σ α)) (world : ω) (who : ι) :
    let system := (start (world, [])).run stores.traced script
    Operation.GoesByFirst stores (Operation.current (ofOwner who script))
      (system.transactions who) system.world.1 system.world.2 := by
  intro system
  have hrouted := Operation.routed_current (ofOwner who script)
  have htx : system.transactions who = (ofOwner who script).foldl Operation.after .first :=
    transactions_run stores.traced _ script who
  rw [htx]
  exact hrouted.goesByFirst stores system.world.1 system.world.2

open Operation in
/-- A read and a removal through a second handle go to the store of the first one. -/
example :
    let first : NamedCache Nat := ⟨"users", 0⟩
    let second : NamedCache Nat := ⟨"users", 1⟩
    let ada := Key.ofComponents [.text "ada"]
    let script : List (Unit × Operation Nat Bool) :=
      [((), clear second), ((), rollback), ((), get first ada Json.boolean),
        ((), remove second ada), ((), commit .staged)]
    ((System.start (([] : Shelf), [])).run Shelf.stores.traced script).world.2 =
      [.store 0 (.get ada.storageKey), .store 0 (.remove ada.storageKey)] := rfl

end ResultCache
