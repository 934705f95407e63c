import ResultCache.Proofs.Publication
import ResultCache.Transaction

/-! # What commits and reads keep, whatever fails -/

namespace ResultCache

variable {σ ω α β : Type}

namespace Action

def Keeps (P : ω → Prop) (action : Action ω α) : Prop := ∀ world, P world → P (action.runOn world).2

variable {P : ω → Prop}

theorem keeps_pure (x : α) : Keeps P (pure x) := fun _ h => h

theorem Keeps.bind {action : Action ω α} {next : α → Action ω β} (h : action.Keeps P)
    (hnext : ∀ x, (next x).Keeps P) : (action >>= next).Keeps P := by
  intro world hw
  have hmiddle := h world hw
  rw [runOn_bind]
  revert hmiddle
  rcases action.runOn world with ⟨e | x, middle⟩
  · exact id
  · exact hnext x middle

private theorem Keeps.discard {action : Action ω α} (h : action.Keeps P) :
    Keeps P (Functor.discard action) := by
  intro world hw
  change P (((fun _ => ()) <$> action).runOn world).2
  rw [runOn_map]
  exact h world hw

theorem keeps_forM {entries : List β} {f : β → Action ω Unit}
    (h : ∀ entry ∈ entries, (f entry).Keeps P) : Keeps P (entries.forM f) := by
  induction entries with
  | nil => exact keeps_pure ()
  | cons entry rest ih =>
    exact (h entry (by simp)).bind fun _ => ih fun e he => h e (List.mem_cons_of_mem _ he)

end Action

variable {P : ω → Prop} {stores : Stores σ ω}

/-- Every store call that publishing a view may make keeps a property. -/
structure View.CallsKeep (stores : Stores σ ω) (P : ω → Prop) (view : View σ) : Prop where
  clear : (stores.clear view.cache.store).Keeps P
  remove : ∀ key : Key, (stores.remove view.cache.store key.storageKey).Keeps P
  put : ∀ (key : Key) text, view.writes.find? key = some text →
    (stores.put view.cache.store key.storageKey text).Keeps P

private theorem View.CallsKeep.publish {view : View σ} (h : view.CallsKeep stores P) :
    (view.publish stores).Keeps P := by
  unfold View.publish View.publishInOrder
  have hrest : Action.Keeps P (do
      view.removals.keys.forM fun key => discard (stores.remove view.cache.store key.storageKey)
      view.writes.entries.forM fun entry =>
        stores.put view.cache.store entry.1.storageKey entry.2) := by
    refine (Action.keeps_forM fun key _ => (h.remove key).discard).bind fun _ => ?_
    exact Action.keeps_forM fun entry he =>
      h.put entry.1 entry.2 ((view.writes.find?_eq_some_iff _ _).mpr he)
  cases view.cleared with
  | false => exact hrest
  | true => exact h.clear.bind fun _ => hrest

private theorem View.SameStaged.callsKeep {view other : View σ} (same : view.SameStaged other)
    (h : other.CallsKeep stores P) : view.CallsKeep stores P where
  clear := same.cache ▸ h.clear
  remove key := same.cache ▸ h.remove key
  put key text hw := by
    rw [Table.find?_eq_of_perm same.writes] at hw
    exact same.cache ▸ h.put key text hw

namespace Transaction

theorem keeps_publishAll {views : List (View σ)} (h : ∀ view ∈ views, view.CallsKeep stores P)
    (world : ω) (hw : P world) : P (publishAll stores views world).2 := by
  induction views generalizing world with
  | nil => exact hw
  | cons view rest ih =>
    have hfirst := (h view (by simp)).publish world hw
    have hrest := ih (fun v hv => h v (List.mem_cons_of_mem _ hv)) _ hfirst
    rw [publishAll]
    revert hrest
    rcases (view.publish stores).runOn world with ⟨_ | _, _⟩ <;> exact id

theorem keeps_commitIn {tx : Transaction σ}
    (h : ∀ id view, tx.views.find? id = some view → view.CallsKeep stores P)
    (order : CommitOrder σ) (world : ω) (hw : P world) :
    P ((commitIn stores order).runOn (tx, world)).2.2 := by
  rw [runOn_commitIn]
  refine keeps_publishAll (fun view hm => ?_) world hw
  obtain ⟨original, ho, rfl⟩ := List.mem_map.mp hm
  obtain ⟨entry, hentry, rfl⟩ := List.mem_map.mp ((order.views_perm tx.views).mem_iff.mp ho)
  exact (order.arrange_same entry.2).callsKeep
    (h entry.1 entry.2 ((tx.views.find?_eq_some_iff _ _).mpr hentry))

theorem keeps_getText (h : ∀ store name, (stores.get store name).Keeps P) (cache : NamedCache σ)
    (key : Key) (tx : Transaction σ) (world : ω) (hw : P world) :
    P ((getText stores cache key).runOn (tx, world)).2.2 := by
  rw [runOn_getText, View.get]
  split
  · exact hw
  · split
    · exact hw
    · exact h _ _ world hw

end Transaction

section Holds

variable [DecidableEq σ] {maps : MapFamily stores} {Q : σ → String → String → Prop}

/-- Every text that a store keeps under a name has a property. -/
def MapFamily.Holds (maps : MapFamily stores) (Q : σ → String → String → Prop) (world : ω) : Prop :=
  ∀ store name text, maps.held world store name = some text → Q store name text

theorem ActsOn.keeps_holds {store : σ} {call : Action ω α} {answer : Texts → α}
    {change : Texts → Texts} (acts : ActsOn maps.held maps.healthy store call answer change)
    (h : ∀ (texts : Texts), (∀ name text, texts name = some text → Q store name text) →
      ∀ name text, change texts name = some text → Q store name text) :
    call.Keeps (maps.Holds Q) := by
  intro world hw other name text ht
  rcases acts.changes world with hc | ⟨-, hc⟩
  · rw [hc] at ht
    by_cases ho : other = store
    · subst ho
      rw [Function.update_self] at ht
      exact h (maps.held world other) (hw other) name text ht
    · rw [Function.update_of_ne ho] at ht
      exact hw other name text ht
  · rw [hc] at ht
    exact hw other name text ht

/-- Publishing a view brings nothing into the stores but its writes. -/
theorem MapFamily.callsKeep_holds {view : View σ}
    (h : ∀ (key : Key) text, view.writes.find? key = some text →
      Q view.cache.store key.storageKey text) :
    view.CallsKeep stores (maps.Holds Q) where
  clear := (maps.clear _).keeps_holds fun _ _ _ _ ht => by cases ht
  remove key := (maps.remove _ key.storageKey).keeps_holds fun texts htexts name text ht => by
    by_cases hn : name = key.storageKey
    · rw [hn, Function.update_self] at ht
      cases ht
    · rw [Function.update_of_ne hn] at ht
      exact htexts name text ht
  put key text hw := (maps.put _ key.storageKey text).keeps_holds fun texts htexts name t ht => by
    by_cases hn : name = key.storageKey
    · rw [hn, Function.update_self, Option.some.injEq] at ht
      rw [hn, ← ht]
      exact h key text hw
    · rw [Function.update_of_ne hn] at ht
      exact htexts name t ht

end Holds
end ResultCache
