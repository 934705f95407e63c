import ResultCache.Proofs.Faults
import ResultCache.Proofs.ViewSteps

/-!
# Commits of a view whose calls fail

A removal that was not carried out is forgotten, and what it masked can be read again.
-/

namespace ResultCache

variable {σ ω : Type}

namespace View

open StoreRequest

/-- The calls for the clear and the removals of a view, in the order of its table. -/
def dropCalls (view : View σ) : List StoreRequest :=
  (if view.cleared then [.clear] else []) ++
    view.removals.keys.map fun key => .remove key.storageKey

def writeCalls (view : View σ) : List StoreRequest :=
  view.writes.entries.map fun entry => .put entry.1.storageKey entry.2

/-- Calls that carry out what a view stages: the clear if it is staged, then one call for each
removal, then one for each write with its text, in any order. No key has two calls. -/
def StagedCalls (view : View σ) (calls : List StoreRequest) : Prop :=
  ∃ (removals : List Key) (writes : List (Key × String)),
    calls = ((if view.cleared then [.clear] else []) ++
        removals.map fun key => .remove key.storageKey) ++
      writes.map (fun entry => .put entry.1.storageKey entry.2) ∧
    (∀ key, key ∈ removals ↔ view.removals.contains key = true) ∧
    (∀ key text, (key, text) ∈ writes ↔ view.writes.find? key = some text) ∧
    (removals ++ writes.map Prod.fst).Nodup

theorem publish_eq_makeAll (stores : Stores σ ω) (view : View σ) :
    view.publish stores =
      makeAll stores view.cache.store (view.dropCalls ++ view.writeCalls) := by
  have hremove : ∀ key : Key, discard (stores.remove view.cache.store key.storageKey) =
      discard ((StoreRequest.remove key.storageKey).perform stores view.cache.store) := fun key =>
    (discard_map _ _).symm
  have hput : ∀ entry : Key × String, stores.put view.cache.store entry.1.storageKey entry.2 =
      discard ((StoreRequest.put entry.1.storageKey entry.2).perform stores view.cache.store) :=
    fun entry => ((discard_map _ _).trans (discard_unit _)).symm
  have hclear : stores.clear view.cache.store =
      discard (StoreRequest.clear.perform stores view.cache.store) :=
    ((discard_map _ _).trans (discard_unit _)).symm
  rw [makeAll_append, dropCalls, makeAll_append, publish, publishInOrder]
  simp only [makeAll, writeCalls, hremove, hput, hclear]
  cases view.cleared <;> simp

private theorem changes_of_mem_dropCalls {view : View σ} {call : StoreRequest}
    (h : call ∈ view.dropCalls) : call = .clear ∨ ∃ name, call = .remove name := by
  rcases List.mem_append.mp h with h | h
  · split at h
    · exact .inl (List.mem_singleton.mp h)
    · cases h
  · obtain ⟨key, -, rfl⟩ := List.mem_map.mp h
    exact .inr ⟨_, rfl⟩

private theorem mem_writeCalls_iff {view : View σ} {call : StoreRequest} :
    call ∈ view.writeCalls ↔
      ∃ key text, view.writes.find? key = some text ∧ call = .put key.storageKey text := by
  constructor
  · intro h
    obtain ⟨entry, he, rfl⟩ := List.mem_map.mp h
    exact ⟨entry.1, entry.2, (view.writes.find?_eq_some_iff _ _).mpr he, rfl⟩
  · rintro ⟨key, text, hw, rfl⟩
    exact List.mem_map.mpr ⟨(key, text), (view.writes.find?_eq_some_iff _ _).mp hw, rfl⟩

theorem changes_of_mem_calls (view : View σ) {call : StoreRequest}
    (h : call ∈ view.dropCalls ++ view.writeCalls) : call.changes = true := by
  rcases List.mem_append.mp h with h | h
  · rcases changes_of_mem_dropCalls h with rfl | ⟨name, rfl⟩ <;> rfl
  · obtain ⟨key, text, -, rfl⟩ := mem_writeCalls_iff.mp h
    rfl

theorem stagedCalls_of_sameStaged {view other : View σ} (apart : view.Apart)
    (h : other.SameStaged view) : view.StagedCalls (other.dropCalls ++ other.writeCalls) := by
  refine ⟨other.removals.keys, other.writes.entries, ?_, fun key => ?_, fun key text => ?_, ?_⟩
  · rw [dropCalls, writeCalls, h.cleared]
  · rw [Table.mem_keys_iff, Table.contains, Table.contains, Table.find?_eq_of_perm h.removals]
  · rw [← Table.find?_eq_some_iff, Table.find?_eq_of_perm h.writes]
  · refine List.nodup_append.mpr ⟨other.removals.distinct, other.writes.distinct, ?_⟩
    intro key hr other' hw heq
    subst heq
    obtain ⟨entry, he, rfl⟩ := List.mem_map.mp hw
    have hr' := (other.removals.mem_keys_iff entry.1).mp hr
    have hw' := (other.writes.find?_eq_some_iff entry.1 entry.2).mpr he
    rw [Table.contains, Table.find?_eq_of_perm h.removals] at hr'
    rw [Table.find?_eq_of_perm h.writes, apart entry.1 hr'] at hw'
    cases hw'

theorem runOn_commitIn_fresh (stores : Stores σ ω) (order : CommitOrder σ) (cache : NamedCache σ)
    (world : ω) :
    (commitIn stores order).runOn (fresh cache, world) = (.ok (), (fresh cache, world)) := by
  have h := order.arrange_same (fresh cache)
  have hcalls : (order.arrange (fresh cache)).dropCalls ++
      (order.arrange (fresh cache)).writeCalls = [] := by
    rw [dropCalls, writeCalls, Table.keys, h.cleared, List.perm_nil.mp h.writes,
      List.perm_nil.mp h.removals]
    rfl
  rw [runOn_commitIn, publish_eq_makeAll, hcalls]
  rfl

section Commit

variable [DecidableEq σ] {stores : Stores σ ω}

/-- A commit makes the calls of its view, in its order, up to the first that fails. -/
theorem runOn_commitIn_failing (maps : MapFamily stores) (faults : Faults σ) (order : CommitOrder σ)
    (view : View σ) (world : ω) (log : List (σ × StoreRequest))
    (healthy : maps.healthy world view.cache.store) :
    ∃ result made carried after,
      (commitIn (stores.failing faults) order).runOn (view, (world, log)) =
        (result, (fresh view.cache, (after, log ++ made.map (view.cache.store, ·)))) ∧
      Attempt faults view.cache.store log
        ((order.arrange view).dropCalls ++ (order.arrange view).writeCalls) result made carried ∧
      maps.held after = Function.update (maps.held world) view.cache.store
        (effects carried (maps.held world view.cache.store)) ∧
      ∀ other, maps.healthy world other → maps.healthy after other := by
  have hcache := (order.arrange_same view).cache
  obtain ⟨result, made, carried, after, hrun, hrest⟩ :=
    runOn_makeAll maps faults view.cache.store _
      (fun _ => (order.arrange view).changes_of_mem_calls) world log healthy
  refine ⟨result, made, carried, after, ?_, hrest⟩
  rw [runOn_commitIn, publish_eq_makeAll, hcache, hrun]

/-- Whichever calls fail, a commit of a view makes the calls that carry out what is staged, in the
order of the phases and up to the first that fails, and answers that call's error. The store keeps
what the others make of its texts, and the view is left fresh in any case. -/
theorem attempt_commitIn (maps : MapFamily stores) (faults : Faults σ) {view : View σ}
    (reachable : view.Reachable) (order : CommitOrder σ) (world : ω)
    (log : List (σ × StoreRequest)) (healthy : maps.healthy world view.cache.store) :
    (∃ calls result made carried after,
      view.StagedCalls calls ∧
      (commitIn (stores.failing faults) order).runOn (view, (world, log)) =
        (result, (fresh view.cache, (after, log ++ made.map (view.cache.store, ·)))) ∧
      Attempt faults view.cache.store log calls result made carried ∧
      maps.held after = Function.update (maps.held world) view.cache.store
        (effects carried (maps.held world view.cache.store))) ∧
    ∀ (keys : List Key) next start,
      let state := takeAll (stores.failing faults) (keys.map .get) (fresh view.cache, start)
      (commitIn (stores.failing faults) next).runOn state = (.ok (), state) := by
  refine ⟨?_, fun keys next start => ?_⟩
  · obtain ⟨result, made, carried, after, hrun, hattempt, hheld, -⟩ :=
      runOn_commitIn_failing maps faults order view world log healthy
    exact ⟨_, result, made, carried, after,
      stagedCalls_of_sameStaged reachable.apart (order.arrange_same view), hrun, hattempt, hheld⟩
  · have hview := view_takeAll_get (stores.failing faults) keys (fresh view.cache, start)
    rw [← Prod.mk.eta (p := takeAll (stores.failing faults) _ _), hview]
    exact runOn_commitIn_fresh _ next view.cache _

/-- Of a clear, a removal and a write the second call fails. -/
theorem attempt_commitIn_of_second_call :
    let users : NamedCache Nat := ⟨"users", 0⟩
    let ada := Key.ofComponents [.text "ada"]
    let bob := Key.ofComponents [.text "bob"]
    let refused : Error := .cache (.reported "second call down")
    let faults : Faults Nat := fun log _ => if log.length = 1 then some refused else none
    let shelf : Shelf := [.map (.new (Table.empty.set ada.storageKey "1"))]
    let view := ((fresh users).clear.remove bob).put ada "2"
    let outcome := (commitIn (Shelf.stores.failing faults) .staged).runOn (view, (shelf, []))
    view.Reachable ∧
      outcome.1 = .error refused ∧
      outcome.2.2.2 = [(0, .clear), (0, .remove bob.storageKey)] ∧
      ∃ calls result made carried after,
        view.StagedCalls calls ∧
        outcome = (result, (fresh users, (after, made.map (0, ·)))) ∧
        Attempt faults 0 [] calls result made carried ∧
        Shelf.maps.held after =
          Function.update (Shelf.maps.held shelf) 0
            (effects carried (Shelf.maps.held shelf 0)) := by
  intro users ada bob refused faults shelf view outcome
  have reachable : view.Reachable :=
    ⟨Shelf, Shelf.stores, shelf, users, [.clear, .remove bob, .put ada "2"], rfl⟩
  have healthy : Shelf.maps.healthy shelf view.cache.store := ⟨_, rfl, fun _ => rfl⟩
  have hne : bob ≠ ada := fun h => by
    simpa [bob, ada, Key.ofComponents] using congrArg Key.components h
  have hcalls : view.dropCalls ++ view.writeCalls =
      [.clear, .remove bob.storageKey, .put ada.storageKey "2"] := by
    simp [dropCalls, writeCalls, view, View.put, View.remove, View.clear, Table.erase, Table.set,
      Table.setEntry, Table.keys, Table.empty, hne]
  have hpublish : view.publish (Shelf.stores.failing faults) =
      makeAll (Shelf.stores.failing faults) 0
        [.clear, .remove bob.storageKey, .put ada.storageKey "2"] := by
    rw [publish_eq_makeAll, hcalls]
    rfl
  have houtcome : outcome.1 = .error refused ∧
      outcome.2.2.2 = [(0, .clear), (0, .remove bob.storageKey)] := by
    change ((view.publish (Shelf.stores.failing faults)).runOn (shelf, [])).1 = _ ∧
      ((view.publish (Shelf.stores.failing faults)).runOn (shelf, [])).2.2 = _
    rw [hpublish]
    exact ⟨rfl, rfl⟩
  exact ⟨reachable, houtcome.1, houtcome.2,
    (attempt_commitIn Shelf.maps faults reachable .staged shelf [] healthy).1⟩

omit [DecidableEq σ] in
private theorem exists_mem_dropCalls {view : View σ} {key : Key}
    (masked : view.cleared = true ∨ view.removals.contains key = true) :
    ∃ call ∈ view.dropCalls, call = .clear ∨ call = .remove key.storageKey := by
  rcases masked with hc | hr
  · exact ⟨.clear, List.mem_append_left _ (by rw [hc]; simp), .inl rfl⟩
  · have hk := (view.removals.mem_keys_iff key).mpr hr
    exact ⟨_, List.mem_append_right _ (List.mem_map_of_mem hk), .inr rfl⟩

omit [DecidableEq σ] in
private theorem put_not_mem_of_masked {view : View σ} {key : Key} {carried : List StoreRequest}
    (isPrefix : carried <+: view.dropCalls ++ view.writeCalls)
    (masked : view.cleared = true ∨ view.removals.contains key = true)
    (hclear : .clear ∉ carried) (hremove : .remove key.storageKey ∉ carried) (name text : String) :
    .put name text ∉ carried := by
  intro hput
  obtain ⟨call, hcall, hown⟩ := exists_mem_dropCalls masked
  rcases List.prefix_or_prefix_of_prefix isPrefix (List.prefix_append _ _) with h | h
  · rcases changes_of_mem_dropCalls (h.subset hput) with hc | ⟨_, hc⟩ <;> cases hc
  · rcases hown with rfl | rfl
    · exact hclear (h.subset hcall)
    · exact hremove (h.subset hcall)

omit [DecidableEq σ] in
private theorem effects_of_not_dropped {view : View σ} {key : Key} {carried : List StoreRequest}
    (isPrefix : carried <+: view.dropCalls ++ view.writeCalls)
    (masked : view.cleared = true ∨ view.removals.contains key = true)
    (kept : ¬ (.clear ∈ carried ∨ .remove key.storageKey ∈ carried)) (texts : Texts) :
    effects carried texts key.storageKey = texts key.storageKey := by
  obtain ⟨hclear, hremove⟩ := not_or.mp kept
  exact effects_of_untouched texts hclear hremove
    (put_not_mem_of_masked isPrefix masked hclear hremove key.storageKey)

omit [DecidableEq σ] in
private theorem effects_of_dropped {view : View σ} {name : String} {carried : List StoreRequest}
    (isPrefix : carried <+: view.dropCalls ++ view.writeCalls)
    (dropped : .clear ∈ carried ∨ .remove name ∈ carried) (texts : Texts) :
    effects carried texts name = none ∨ ∃ key text, view.writes.find? key = some text ∧
      key.storageKey = name ∧ effects carried texts name = some text := by
  cases hkept : effects carried texts name with
  | none => exact .inl rfl
  | some text =>
    rcases effects_source hkept with hput | ⟨-, hclear, hremove⟩
    · have hwrite : .put name text ∈ view.writeCalls := by
        rcases List.mem_append.mp (isPrefix.subset hput) with h | h
        · rcases changes_of_mem_dropCalls h with hc | ⟨_, hc⟩ <;> cases hc
        · exact h
      obtain ⟨key, staged, hfind, hequal⟩ := mem_writeCalls_iff.mp hwrite
      obtain ⟨hname, rfl⟩ := StoreRequest.put.inj hequal
      exact .inr ⟨key, text, hfind, hname.symm, rfl⟩
    · exact absurd dropped (not_or.mpr ⟨hclear, hremove⟩)

/-- After a commit that failed, a key that was masked, by a clear or by its removal, shows nothing
or a text that was staged for its storage name if that clear or removal was carried out before the
failing call. If not, it shows again what the store kept before the commit. -/
theorem get_after_failed_commit (maps : MapFamily stores) (faults : Faults σ) (view after : View σ)
    (order : CommitOrder σ) (world world' : ω) (log log' : List (σ × StoreRequest)) (e : Error)
    (healthy : maps.healthy world view.cache.store)
    (failed : (commitIn (stores.failing faults) order).runOn (view, (world, log)) =
      (.error e, (after, (world', log')))) :
    ∃ carried call,
      log' = log ++ (carried ++ [call]).map (view.cache.store, ·) ∧
      faults.Spares view.cache.store log carried ∧
      faults (log ++ carried.map (view.cache.store, ·)) (view.cache.store, call) = some e ∧
      ∀ key, view.cleared = true ∨ view.removals.contains key = true →
        let shown := ((after.get stores key).runOn world').1
        if .clear ∈ carried ∨ .remove key.storageKey ∈ carried then
          shown = .ok none ∨ ∃ other text, view.writes.find? other = some text ∧
            other.storageKey = key.storageKey ∧ shown = .ok (some text)
        else shown = .ok (maps.held world view.cache.store key.storageKey) := by
  obtain ⟨result, made, carried, middle, hrun, hattempt, hheld, hkeeps⟩ :=
    runOn_commitIn_failing maps faults order view world log healthy
  rw [hrun] at failed
  cases failed
  generalize hcalls : (order.arrange view).dropCalls ++ (order.arrange view).writeCalls = calls
    at hattempt
  cases hattempt with
  | @stopped _ later call _ spared fault =>
  refine ⟨carried, call, rfl, spared, fault, fun key masked => ?_⟩
  have same := order.arrange_same view
  have isPrefix : carried <+: (order.arrange view).dropCalls ++ (order.arrange view).writeCalls :=
    ⟨call :: later, hcalls.symm⟩
  have hshown : (((fresh view.cache).get stores key).runOn world').1 =
      .ok (effects carried (maps.held world view.cache.store) key.storageKey) := by
    rw [get_fresh, (maps.get view.cache.store key.storageKey).answer_eq (hkeeps _ healthy), hheld,
      Function.update_self]
  dsimp only
  rw [hshown]
  split
  · rename_i dropped
    rcases effects_of_dropped isPrefix dropped (maps.held world view.cache.store) with hgone |
      ⟨other, text, hwrite, hname, hstaged⟩
    · exact .inl (congrArg Except.ok hgone)
    · rw [Table.find?_eq_of_perm same.writes] at hwrite
      exact .inr ⟨other, text, hwrite, hname, congrArg Except.ok hstaged⟩
  · rename_i kept
    have masked' : (order.arrange view).cleared = true ∨
        (order.arrange view).removals.contains key = true := by
      rwa [same.cleared, Table.contains, Table.find?_eq_of_perm same.removals]
    rw [effects_of_not_dropped isPrefix masked' kept]

/-- A clear is carried out and the write after it is refused, so what was cleared does not show
again. -/
theorem get_after_failed_commit_of_refused_put :
    let users : NamedCache Nat := ⟨"users", 0⟩
    let ada := Key.ofComponents [.text "ada"]
    let bob := Key.ofComponents [.text "bob"]
    let refused : Error := .cache (.reported "put down")
    let faults : Faults Nat := fun _ call =>
      match call.2 with
      | .put .. => some refused
      | _ => none
    let shelf : Shelf := [.map (.new (Table.empty.set ada.storageKey "1"))]
    let view := ((fresh users).remove ada).clear.put bob "2"
    ∃ after world' log',
      (commitIn (Shelf.stores.failing faults) .staged).runOn (view, (shelf, [])) =
        (.error refused, (after, (world', log'))) ∧
      log' = [(0, .clear), (0, .put bob.storageKey "2")] ∧
      (((after.get Shelf.stores ada).runOn world').1 = .ok none ∨
        ∃ other text, view.writes.find? other = some text ∧
          other.storageKey = ada.storageKey ∧
          ((after.get Shelf.stores ada).runOn world').1 = .ok (some text)) := by
  intro users ada bob refused faults shelf view
  have healthy : Shelf.maps.healthy shelf view.cache.store := ⟨_, rfl, fun _ => rfl⟩
  obtain ⟨carried, call, hlog, -, -, hshown⟩ :=
    get_after_failed_commit Shelf.maps faults view _ .staged shelf _ [] _ refused healthy rfl
  refine ⟨_, _, _, rfl, rfl, ?_⟩
  have hcarried : .clear ∈ carried := by
    cases carried with
    | nil => cases hlog
    | cons first rest =>
      have hfirst : (0, StoreRequest.clear) = (0, first) := (List.cons.inj hlog).1
      exact (Prod.mk.inj hfirst).2 ▸ List.mem_cons_self
  have hada := hshown ada (.inl rfl)
  rw [if_pos (.inl hcarried)] at hada
  exact hada

/-- A removal is refused, and the text that it masked can be read again. -/
theorem masked_text_of_refused_removal :
    let users : NamedCache Nat := ⟨"users", 0⟩
    let ada := Key.ofComponents [.text "ada"]
    let refused : Error := .cache (.reported "remove down")
    let faults : Faults Nat := fun _ call =>
      match call.2 with
      | .remove _ => some refused
      | _ => none
    let shelf : Shelf := [.map (.new (Table.empty.set ada.storageKey "1"))]
    let view := (fresh users).remove ada
    let outcome := (commitIn (Shelf.stores.failing faults) .staged).runOn (view, (shelf, []))
    view.Reachable ∧ view.removals.contains ada = true ∧ view.writes.isEmpty = true ∧
      Shelf.maps.held shelf 0 ada.storageKey = some "1" ∧
      outcome.1 = .error refused ∧
      ((outcome.2.1.get Shelf.stores ada).runOn outcome.2.2.1).1 = .ok (some "1") := by
  intro users ada refused faults shelf view outcome
  have reachable : view.Reachable := ⟨Shelf, Shelf.stores, shelf, users, [.remove ada], rfl⟩
  have held : Shelf.maps.held shelf 0 ada.storageKey = some "1" := Shelf.held_set (.new .empty) _ _
  have healthy : Shelf.maps.healthy shelf 0 := ⟨_, rfl, fun _ => rfl⟩
  refine ⟨reachable, by simp [view, View.remove], rfl, held, rfl, ?_⟩
  have hget := (Shelf.maps.get 0 ada.storageKey).answer_eq healthy
  rw [held] at hget
  exact hget

end Commit

end View
end ResultCache
