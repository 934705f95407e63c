import Mathlib.Data.List.TakeWhile
import ResultCache.Proofs.Commit
import ResultCache.Proofs.ViewCommits

/-!
# A commit of several views, some of which fail

What becomes of one view has no bearing on another.
-/

namespace ResultCache

variable {σ ω : Type}

/-! ## One view after the other -/

def firstFailure : List (Except Error Unit) → Except Error Unit
  | [] => .ok ()
  | .ok () :: later => firstFailure later
  | .error e :: _ => .error e

theorem firstFailure_eq_ok_iff {results : List (Except Error Unit)} :
    firstFailure results = .ok () ↔ ∀ result ∈ results, result = .ok () := by
  induction results with
  | nil => simp [firstFailure]
  | cons result later ih =>
    cases result with
    | ok _ => simp [firstFailure, ih]
    | error e => simp [firstFailure]

/-- Commits views one after the other, all of them even if some fail: their results, and the world
afterwards. -/
def View.commitEach (stores : Stores σ ω) (order : CommitOrder σ) :
    List (View σ) → ω → List (Except Error Unit) × ω
  | [], world => ([], world)
  | view :: views, world =>
    match (commitIn stores order).runOn (view, world) with
    | (result, (_, world)) =>
      match commitEach stores order views world with
      | (results, world) => (result :: results, world)

private theorem Transaction.publishAll_eq_commitEach (stores : Stores σ ω) (order : CommitOrder σ)
    (views : List (View σ)) (world : ω) :
    (publishAll stores (views.map order.arrange) world).1.elim (.ok ()) .error =
        firstFailure (View.commitEach stores order views world).1 ∧
      (publishAll stores (views.map order.arrange) world).2 =
        (View.commitEach stores order views world).2 := by
  induction views generalizing world with
  | nil => exact ⟨rfl, rfl⟩
  | cons view rest ih =>
    rw [List.map_cons, publishAll, View.commitEach, View.runOn_commitIn]
    dsimp only
    obtain ⟨hresult, hworld⟩ := ih (((order.arrange view).publish stores).runOn world).2
    cases (((order.arrange view).publish stores).runOn world).1 with
    | ok _ => exact ⟨hresult, hworld⟩
    | error e => exact ⟨rfl, hworld⟩

theorem Transaction.runOn_commitIn_eq (stores : Stores σ ω) (order : CommitOrder σ)
    (tx : Transaction σ) (world : ω) :
    (commitIn stores order).runOn (tx, world) =
      (firstFailure (View.commitEach stores order (order.views tx.views) world).1,
        (tx.next, (View.commitEach stores order (order.views tx.views) world).2)) := by
  obtain ⟨hresult, hworld⟩ := publishAll_eq_commitEach stores order (order.views tx.views) world
  rw [runOn_commitIn, ← hresult, ← hworld]

/-! ## Lists of one kind -/

section Uniform

variable {β γ : Type} {xs : List β}

private theorem takeWhile_append_of_uniform {p : β → Bool} {b : Bool} (h : ∀ x ∈ xs, p x = b)
    (ys : List β) :
    (xs ++ ys).takeWhile p = if b || xs.isEmpty then xs ++ ys.takeWhile p else [] := by
  cases b with
  | true => exact List.takeWhile_append_of_pos h
  | false =>
    cases xs with
    | nil => rfl
    | cons x rest => simp [h x List.mem_cons_self]

private theorem findSome?_of_uniform {f : β → Option γ} {result : Option γ}
    (h : ∀ x ∈ xs, f x = result) :
    xs.findSome? f = if xs.isEmpty then none else result := by
  induction xs with
  | nil => rfl
  | cons x rest ih =>
    have hrest := ih fun y hy => h y (List.mem_cons_of_mem _ hy)
    rw [List.findSome?_cons, h x List.mem_cons_self, hrest]
    cases result with
    | some found => rfl
    | none => simp

end Uniform

/-! ## Calls that fail by their kind -/

def StoreRequest.kind : StoreRequest → CallKind
  | get _ | contains _ => .get
  | put .. => .put
  | remove _ => .remove
  | clear => .clear
  | size => .size

/-- Calls fail by the kinds that each store refuses. -/
def Faults.ofKinds (failing : σ → CallKind → Option Error) : Faults σ := fun _ call =>
  failing call.1 call.2.kind

private theorem Attempt.of_ofKinds {failing : σ → CallKind → Option Error} {store : σ}
    {log : List (σ × StoreRequest)} {calls made carried : List StoreRequest}
    {result : Except Error Unit}
    (h : Attempt (.ofKinds failing) store log calls result made carried) :
    result = (calls.findSome? fun call => failing store call.kind).elim (.ok ()) .error ∧
      carried = calls.takeWhile fun call => (failing store call.kind).isNone := by
  have spares {calls : List StoreRequest}
      (spared : (Faults.ofKinds failing).Spares store log calls) :
      ∀ call ∈ calls, failing store call.kind = none := by
    intro call hc
    obtain ⟨before, after, hsplit⟩ := List.append_of_mem hc
    exact spared before call after hsplit
  cases h with
  | completed spared =>
    have hnone := spares spared
    refine ⟨?_, ?_⟩
    · rw [List.findSome?_eq_none_iff.mpr hnone]
      rfl
    · exact (List.takeWhile_eq_self_iff.mpr fun call hc => by simp [hnone call hc]).symm
  | @stopped _ after call e spared fault =>
    have hnone := spares spared
    have hfault : failing store call.kind = some e := fault
    refine ⟨?_, ?_⟩
    · rw [List.findSome?_append, List.findSome?_eq_none_iff.mpr hnone, Option.none_or,
        List.findSome?_cons, hfault]
      rfl
    · rw [List.takeWhile_append_of_pos fun call hc => by simp [hnone call hc], List.takeWhile_cons]
      simp [hfault]

namespace View

open StoreRequest

/-- The error with which a commit of the view ends, if it does, where calls of some kinds fail. -/
def failure (failing : CallKind → Option Error) (view : View σ) : Option Error :=
  (if view.cleared then failing .clear else none).or
    ((if view.removals.isEmpty then none else failing .remove).or
      (if view.writes.isEmpty then none else failing .put))

/-- What is carried out of a view where calls of some kinds fail: its phases up to the first with
such a call. -/
def carried (failing : CallKind → Option Error) (view : View σ) : View σ :=
  if view.cleared && (failing .clear).isSome then fresh view.cache
  else if !view.removals.isEmpty && (failing .remove).isSome then
    { view with removals := Table.empty, writes := Table.empty }
  else if !view.writes.isEmpty && (failing .put).isSome then { view with writes := Table.empty }
  else view

section Phases

variable (failing : CallKind → Option Error) (view : View σ)

private theorem kind_of_clearCall {call : StoreRequest}
    (h : call ∈ (if view.cleared then [StoreRequest.clear] else [])) : call.kind = .clear := by
  split at h
  · rw [List.mem_singleton.mp h]
    rfl
  · cases h

private theorem kind_of_removeCall {call : StoreRequest}
    (h : call ∈ view.removals.keys.map fun key => StoreRequest.remove key.storageKey) :
    call.kind = .remove := by
  obtain ⟨key, -, rfl⟩ := List.mem_map.mp h
  rfl

private theorem kind_of_writeCall {call : StoreRequest} (h : call ∈ view.writeCalls) :
    call.kind = .put := by
  obtain ⟨entry, -, rfl⟩ := List.mem_map.mp h
  rfl

private theorem findSome?_calls :
    (view.dropCalls ++ view.writeCalls).findSome? (fun call => failing call.kind) =
      view.failure failing := by
  rw [List.findSome?_append, dropCalls, List.findSome?_append,
    findSome?_of_uniform fun call h => congrArg failing (view.kind_of_clearCall h),
    findSome?_of_uniform fun call h => congrArg failing (view.kind_of_removeCall h),
    findSome?_of_uniform fun call h => congrArg failing (view.kind_of_writeCall h), Option.or_assoc,
    failure]
  cases view.cleared <;> simp [writeCalls, Table.keys, Table.isEmpty]

private theorem takeWhile_calls :
    (view.dropCalls ++ view.writeCalls).takeWhile (fun call => (failing call.kind).isNone) =
      (view.carried failing).dropCalls ++ (view.carried failing).writeCalls := by
  have uniform {calls : List StoreRequest} {kind : CallKind}
      (h : ∀ call ∈ calls, call.kind = kind) :
      ∀ call ∈ calls, (failing call.kind).isNone = (failing kind).isNone := fun call hc => by
    rw [h call hc]
  rw [dropCalls, List.append_assoc,
    takeWhile_append_of_uniform (uniform fun call h => view.kind_of_clearCall h),
    takeWhile_append_of_uniform (uniform fun call h => view.kind_of_removeCall h),
    ← List.append_nil view.writeCalls,
    takeWhile_append_of_uniform (uniform fun call h => view.kind_of_writeCall h), carried]
  -- A phase is passed exactly if it is empty or its calls do not fail.
  have hclear : ((failing .clear).isNone ||
      (if view.cleared then [StoreRequest.clear] else []).isEmpty) =
        !(view.cleared && (failing .clear).isSome) := by
    cases view.cleared <;> simp
  have hremove : ((failing .remove).isNone ||
      (view.removals.keys.map fun key => StoreRequest.remove key.storageKey).isEmpty) =
        !(!view.removals.isEmpty && (failing .remove).isSome) := by
    simp [Table.keys, Table.isEmpty, Bool.or_comm]
  have hput : ((failing .put).isNone || view.writeCalls.isEmpty) =
      !(!view.writes.isEmpty && (failing .put).isSome) := by
    simp [writeCalls, Table.isEmpty, Bool.or_comm]
  rw [hclear, hremove, hput]
  cases view.cleared && (failing .clear).isSome with
  | true => rfl
  | false =>
    cases !view.removals.isEmpty && (failing .remove).isSome with
    | true => simp [dropCalls, writeCalls, Table.keys, Table.empty]
    | false =>
      cases !view.writes.isEmpty && (failing .put).isSome with
      | true => simp [dropCalls, writeCalls, Table.empty]
      | false => simp [dropCalls]

private theorem carried_cache : (view.carried failing).cache = view.cache := by
  unfold carried
  split_ifs <;> rfl

private theorem effects_calls (texts : Texts) :
    effects (view.dropCalls ++ view.writeCalls) texts = view.published texts := by
  rw [effects_append, dropCalls, effects_append, writeCalls, published, setTexts, setTexts, effects,
    effects, effects, List.foldl_map, List.foldl_map]
  cases view.cleared <;> rfl

variable {failing view}

private theorem Within.carried {keys : Set Key} (h : view.Within keys) :
    (view.carried failing).Within keys := by
  unfold View.carried
  split_ifs
  · exact within_fresh view.cache keys
  · exact ⟨nofun, nofun⟩
  · exact ⟨nofun, h.removals⟩
  · exact h

end Phases

variable {failing : CallKind → Option Error} {view other : View σ}

private theorem SameStaged.isEmpty (h : view.SameStaged other) :
    view.writes.isEmpty = other.writes.isEmpty ∧
      view.removals.isEmpty = other.removals.isEmpty :=
  ⟨h.writes.isEmpty_eq, h.removals.isEmpty_eq⟩

private theorem SameStaged.failure_eq (h : view.SameStaged other) :
    view.failure failing = other.failure failing := by
  rw [failure, failure, h.cleared, h.isEmpty.1, h.isEmpty.2]

private theorem SameStaged.carried (h : view.SameStaged other) :
    (view.carried failing).SameStaged (other.carried failing) := by
  rw [View.carried, View.carried, h.cleared, h.isEmpty.1, h.isEmpty.2]
  split_ifs
  · exact h.cache ▸ .refl _
  · exact ⟨h.cache, rfl, .refl _, .refl _⟩
  · exact ⟨h.cache, rfl, .refl _, h.removals⟩
  · exact h

end View

section Carried

variable [DecidableEq σ] (failing : σ → CallKind → Option Error) {views : List (View σ)}

/-- Where the views are over different stores, what is carried out of one of them is all that
becomes of its store. -/
theorem publishedViews_carried_of_mem (apart : (views.map fun view => view.cache.store).Nodup)
    {view : View σ} (h : view ∈ views) (held : σ → Texts) :
    publishedViews (views.map fun view => view.carried (failing view.cache.store)) held
        view.cache.store =
      (view.carried (failing view.cache.store)).published (held view.cache.store) := by
  have hstores : (views.map fun view => view.carried (failing view.cache.store)).map
      (fun view => view.cache.store) = views.map fun view => view.cache.store := by
    rw [List.map_map]
    exact List.map_congr_left fun view _ => congrArg NamedCache.store (View.carried_cache _ view)
  have hmem := List.mem_map_of_mem (f := fun view => View.carried (failing view.cache.store) view) h
  have hpublished := publishedViews_of_mem (hstores.symm ▸ apart) hmem held
  rwa [View.carried_cache] at hpublished

private theorem publishedViews_carried_of_ne {store : σ}
    (h : ∀ view ∈ views, view.cache.store ≠ store) (held : σ → Texts) :
    publishedViews (views.map fun view => view.carried (failing view.cache.store)) held store =
      held store := by
  refine publishedViews_of_ne (List.forall_mem_map.mpr fun view hv => ?_) held
  rw [View.carried_cache]
  exact h view hv

end Carried

section Kinds

variable [DecidableEq σ] {stores : Stores σ ω} (maps : MapFamily stores)
  (failing : σ → CallKind → Option Error) (order : CommitOrder σ) {keys : Set Key}
  (oneKey : Set.InjOn Key.storageKey keys)
include oneKey

theorem View.runOn_commitIn_ofKinds {view : View σ} (keyed : view.Within keys) (world : ω)
    (log : List (σ × StoreRequest)) (healthy : maps.healthy world view.cache.store) :
    ∃ after log',
      (commitIn (stores.failing (.ofKinds failing)) order).runOn (view, (world, log)) =
        ((view.failure (failing view.cache.store)).elim (.ok ()) .error,
          (fresh view.cache, (after, log'))) ∧
      maps.held after = Function.update (maps.held world) view.cache.store
        ((view.carried (failing view.cache.store)).published (maps.held world view.cache.store)) ∧
      ∀ other, maps.healthy world other → maps.healthy after other := by
  obtain ⟨result, made, carried, after, hrun, hattempt, hheld, hkeeps⟩ :=
    runOn_commitIn_failing maps (.ofKinds failing) order view world log healthy
  obtain ⟨hresult, hcarried⟩ := hattempt.of_ofKinds
  have same := order.arrange_same view
  refine ⟨after, log ++ made.map (view.cache.store, ·), ?_, ?_, hkeeps⟩
  · rw [hrun, hresult, findSome?_calls, same.failure_eq]
  · rw [hheld, hcarried, takeWhile_calls, effects_calls,
      SameStaged.published_eq keyed.carried oneKey same.carried]

private theorem View.commitIn_ofKinds_alone {view : View σ} (keyed : view.Within keys) (world : ω)
    (log : List (σ × StoreRequest)) (healthy : maps.healthy world view.cache.store) :
    let outcome := (commitIn (stores.failing (.ofKinds failing)) order).runOn (view, (world, log))
    outcome.1 = (view.failure (failing view.cache.store)).elim (.ok ()) .error ∧
      maps.held outcome.2.2.1 view.cache.store =
        (view.carried (failing view.cache.store)).published
          (maps.held world view.cache.store) := by
  obtain ⟨after, log', hrun, hheld, -⟩ :=
    runOn_commitIn_ofKinds maps failing order oneKey keyed world log healthy
  rw [hrun]
  dsimp only
  rw [hheld, Function.update_self]
  exact ⟨rfl, rfl⟩

theorem View.commitEach_ofKinds {views : List (View σ)} (keyed : ∀ view ∈ views, view.Within keys)
    (world : ω) (log : List (σ × StoreRequest))
    (healthy : ∀ view ∈ views, maps.healthy world view.cache.store) :
    ∃ after log',
      commitEach (stores.failing (.ofKinds failing)) order views (world, log) =
        (views.map fun view => (view.failure (failing view.cache.store)).elim (.ok ()) .error,
          (after, log')) ∧
      maps.held after = publishedViews
        (views.map fun view => view.carried (failing view.cache.store)) (maps.held world) := by
  induction views generalizing world log with
  | nil => exact ⟨world, log, rfl, rfl⟩
  | cons view rest ih =>
    obtain ⟨middle, log', hrun, hheld, hkeeps⟩ :=
      runOn_commitIn_ofKinds maps failing order oneKey (keyed view (by simp)) world log
        (healthy view (by simp))
    obtain ⟨after, log'', hrest, hheld'⟩ :=
      ih (fun v hv => keyed v (List.mem_cons_of_mem _ hv)) middle log'
        fun v hv => hkeeps _ (healthy v (List.mem_cons_of_mem _ hv))
    refine ⟨after, log'', ?_, ?_⟩
    · simp only [commitEach, hrun, hrest, List.map_cons]
    · rw [hheld', hheld, List.map_cons, publishedViews, publishedViews, List.foldl_cons,
        carried_cache]

end Kinds

/-! ## All views of a transaction -/

theorem CommitOrder.mem_views_iff (order : CommitOrder σ) (table : Table String (View σ))
    {view : View σ} : view ∈ order.views table ↔ ∃ id, table.find? id = some view := by
  rw [(order.views_perm table).mem_iff, List.mem_map]
  constructor
  · rintro ⟨entry, he, rfl⟩
    exact ⟨entry.1, (table.find?_eq_some_iff _ _).mpr he⟩
  · rintro ⟨id, hv⟩
    exact ⟨(id, view), (table.find?_eq_some_iff _ _).mp hv, rfl⟩

private theorem CommitOrder.nodup_stores_iff (order : CommitOrder σ)
    (table : Table String (View σ)) :
    ((order.views table).map fun view => view.cache.store).Nodup ↔
      (table.entries.map fun entry => entry.2.cache.store).Nodup := by
  rw [((order.views_perm table).map _).nodup_iff, List.map_map]
  rfl

namespace Transaction

theorem runOn_commitIn_next (stores : Stores σ ω) (order : CommitOrder σ) (tx : Transaction σ)
    (world : ω) :
    (commitIn stores order).runOn (tx.next, world) = (.ok (), (tx.next.next, world)) := by
  have hviews : order.views tx.next.views = [] := List.perm_nil.mp (order.views_perm _)
  rw [runOn_commitIn_eq, hviews]
  rfl

/-- Where every store refuses calls of certain kinds, a commit leaves every store as the commit of
its view alone does, in whichever order views and keys are visited. It succeeds exactly if the
commit of every view alone does, and else answers the failure of the first view visited that fails.
-/
theorem commitIn_of_failing_kinds [DecidableEq σ] {stores : Stores σ ω} (maps : MapFamily stores)
    (failing : σ → CallKind → Option Error) (order : CommitOrder σ) {keys : Set Key}
    (oneKey : Set.InjOn Key.storageKey keys) (tx : Transaction σ)
    (keyed : ∀ id view, tx.views.find? id = some view → view.Within keys)
    (apart : (tx.views.entries.map fun entry => entry.2.cache.store).Nodup)
    (world : ω) (log : List (σ × StoreRequest))
    (healthy : ∀ id view, tx.views.find? id = some view → maps.healthy world view.cache.store) :
    let refusing := stores.failing (.ofKinds failing)
    let alone := fun (own : CommitOrder σ) (view : View σ) =>
      (View.commitIn refusing own).runOn (view, (world, log))
    ∃ result after,
      (commitIn refusing order).runOn (tx, (world, log)) = (result, (tx.next, after)) ∧
      (∀ own id view, tx.views.find? id = some view →
        maps.held after.1 view.cache.store = maps.held (alone own view).2.2.1 view.cache.store) ∧
      (∀ store, (∀ id view, tx.views.find? id = some view → view.cache.store ≠ store) →
        maps.held after.1 store = maps.held world store) ∧
      (∀ own, result = firstFailure ((order.views tx.views).map fun view => (alone own view).1)) ∧
      (∀ own, result = .ok () ↔
        ∀ id view, tx.views.find? id = some view → (alone own view).1 = .ok ()) ∧
      tx.next.isEmpty = true ∧ tx.next.generation ≠ tx.generation ∧
      ∀ later,
        (commitIn refusing later).runOn (tx.next, after) = (.ok (), (tx.next.next, after)) := by
  intro refusing alone
  have visited : ∀ view, view ∈ order.views tx.views ↔ ∃ id, tx.views.find? id = some view :=
    fun view => order.mem_views_iff tx.views
  have halone : ∀ own view, view ∈ order.views tx.views →
      (alone own view).1 = (view.failure (failing view.cache.store)).elim (.ok ()) .error ∧
      maps.held (alone own view).2.2.1 view.cache.store =
        (view.carried (failing view.cache.store)).published (maps.held world view.cache.store) := by
    intro own view hv
    obtain ⟨id, hid⟩ := (visited view).mp hv
    exact View.commitIn_ofKinds_alone maps failing own oneKey (keyed id view hid) world log
      (healthy id view hid)
  have hstores := (order.nodup_stores_iff tx.views).mpr apart
  obtain ⟨after, log', hrun, hheld⟩ := View.commitEach_ofKinds maps failing order oneKey
    (fun view hv => ((visited view).mp hv).elim fun id => keyed id view) world log
    fun view hv => ((visited view).mp hv).elim fun id => healthy id view
  have hresult : ∀ own,
      firstFailure (View.commitEach refusing order (order.views tx.views) (world, log)).1 =
        firstFailure ((order.views tx.views).map fun view => (alone own view).1) := by
    intro own
    rw [hrun]
    exact congrArg firstFailure (List.map_congr_left fun view hv => (halone own view hv).1.symm)
  refine ⟨_, _, runOn_commitIn_eq refusing order tx (world, log), fun own id view hv => ?_,
    fun store hne => ?_, hresult, fun own => ?_, rfl, Nat.succ_ne_self _,
    fun later => runOn_commitIn_next refusing later tx _⟩
  · have hm := (visited view).mpr ⟨id, hv⟩
    rw [(halone own view hm).2, hrun]
    dsimp only
    rw [hheld, publishedViews_carried_of_mem failing hstores hm]
  · rw [hrun]
    dsimp only
    rw [hheld]
    exact publishedViews_carried_of_ne failing
      (fun view hv => ((visited view).mp hv).elim fun id => hne id view) _
  · rw [hresult own, firstFailure_eq_ok_iff, List.forall_mem_map]
    constructor
    · exact fun h id view hv => h view ((visited view).mpr ⟨id, hv⟩)
    · exact fun h view hv => ((visited view).mp hv).elim fun id hid => h id view hid

/-- One of two stores refuses to be written: it is cleared all the same, and the other is
written. -/
theorem commitIn_of_failing_kinds_of_two_stores :
    let users : NamedCache Nat := ⟨"users", 0⟩
    let orders : NamedCache Nat := ⟨"orders", 1⟩
    let ada := Key.ofComponents [.text "ada"]
    let refused : Error := .cache (.reported "put down")
    let failing : Nat → CallKind → Option Error := fun store kind =>
      if store = 0 ∧ kind = .put then some refused else none
    let refusing := Shelf.stores.failing (.ofKinds failing)
    let shelf : Shelf := [.map (.new (Table.empty.set ada.storageKey "0")), .map (.new .empty)]
    let tx := ((first.clear users).putText users ada "1").putText orders ada "2"
    let alone := fun view => (View.commitIn refusing .staged).runOn (view, (shelf, []))
    ∃ after,
      (commitIn refusing .staged).runOn (tx, (shelf, [])) = (.error refused, (tx.next, after)) ∧
      after.2 = [(0, .clear), (0, .put ada.storageKey "1"), (1, .put ada.storageKey "2")] ∧
      (∀ id view, tx.views.find? id = some view →
        Shelf.maps.held after.1 view.cache.store =
          Shelf.maps.held (alone view).2.2.1 view.cache.store) ∧
      ∀ later,
        (commitIn refusing later).runOn (tx.next, after) = (.ok (), (tx.next.next, after)) := by
  intro users orders ada refused failing refusing shelf tx alone
  have hviews : ∀ id view, tx.views.find? id = some view →
      view = (View.fresh users).clear.put ada "1" ∨ view = (View.fresh orders).put ada "2" := by
    intro id view hv
    have hentries : tx.views.entries = [("users", (View.fresh users).clear.put ada "1"),
        ("orders", (View.fresh orders).put ada "2")] := rfl
    have hm := (tx.views.find?_eq_some_iff id view).mp hv
    rw [hentries] at hm
    simp only [List.mem_cons, Prod.mk.injEq, List.not_mem_nil, or_false] at hm
    exact hm.imp And.right And.right
  have keyed : ∀ id view, tx.views.find? id = some view → view.Within {ada} := by
    intro id view hv
    rcases hviews id view hv with rfl | rfl
    · exact (View.within_clear _ _).put (Set.mem_singleton ada) "1"
    · exact (View.within_fresh _ _).put (Set.mem_singleton ada) "2"
  have healthy : ∀ id view, tx.views.find? id = some view →
      Shelf.maps.healthy shelf view.cache.store := by
    have hnew (entries : Table String String) : (MapStore.new entries).Healthy := fun _ => rfl
    intro id view hv
    rcases hviews id view hv with rfl | rfl
    · exact ⟨_, rfl, hnew _⟩
    · exact ⟨_, rfl, hnew _⟩
  obtain ⟨result, after, hrun, halone, -, -, -, -, -, hnext⟩ :=
    commitIn_of_failing_kinds Shelf.maps failing .staged (Set.injOn_singleton _ ada) tx keyed
      (by decide) shelf [] healthy
  obtain rfl : result = .error refused := (congrArg Prod.fst hrun).symm
  obtain rfl := congrArg (fun outcome => outcome.2.2) hrun
  exact ⟨_, hrun, rfl, fun id view hv => halone .staged id view hv, hnext⟩

end Transaction
end ResultCache
