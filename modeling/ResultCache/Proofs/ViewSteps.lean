import ResultCache.Transaction

/-! # Views step by step -/

namespace ResultCache.View

variable {σ ω : Type}

/-- Publishes the staged state in the given order. Nothing stays staged, whether or not every call
succeeded. -/
def commitIn (stores : Stores σ ω) (order : CommitOrder σ) : Action (View σ × ω) Unit :=
  Action.ofFunction fun (view, world) =>
    match ((order.arrange view).publish stores).runOn world with
    | (result, world) => (result, (view.reset, world))

theorem commitIn_staged (stores : Stores σ ω) :
    commitIn stores CommitOrder.staged = commit stores := rfl

theorem runOn_commitIn (stores : Stores σ ω) (order : CommitOrder σ) (view : View σ) (world : ω) :
    (commitIn stores order).runOn (view, world) =
      ((((order.arrange view).publish stores).runOn world).1,
        (fresh view.cache, (((order.arrange view).publish stores).runOn world).2)) := rfl

/-- What can be done with a view. A commit comes with the order in which it carries out what is
staged. -/
inductive Step (σ : Type) where
  | get (key : Key)
  | put (key : Key) (text : String)
  | remove (key : Key)
  | clear
  | commit (order : CommitOrder σ)
  | rollback

/-- Takes a step. There is an answer where something was read. -/
def take (stores : Stores σ ω) : Step σ → Action (View σ × ω) (Option String)
  | .get key => .ofFunction fun (view, world) =>
    match (view.get stores key).runOn world with
    | (result, world) => (result, (view, world))
  | .put key text => .ofFunction fun (view, world) => (.ok none, (view.put key text, world))
  | .remove key => .ofFunction fun (view, world) => (.ok none, (view.remove key, world))
  | .clear => .ofFunction fun (view, world) => (.ok none, (view.clear, world))
  | .commit order => (fun _ => none) <$> commitIn stores order
  | .rollback => .ofFunction fun (view, world) => (.ok none, (view.rollback, world))

def takeAll (stores : Stores σ ω) (steps : List (Step σ)) (state : View σ × ω) : View σ × ω :=
  steps.foldl (fun state step => ((take stores step).runOn state).2) state

/-- A view that comes of a fresh one by steps on some stores. -/
def Reachable (view : View σ) : Prop :=
  ∃ (ω : Type) (stores : Stores σ ω) (world : ω) (cache : NamedCache σ) (steps : List (Step σ)),
    (takeAll stores steps (fresh cache, world)).1 = view

/-- No key is staged for writing and for removal at once. -/
def Apart (view : View σ) : Prop :=
  ∀ key, view.removals.contains key = true → view.writes.find? key = none

theorem apart_fresh (cache : NamedCache σ) : (fresh cache).Apart := fun _ h => by cases h

theorem apart_clear (view : View σ) : view.clear.Apart := fun _ h => by cases h

theorem Apart.put {view : View σ} (h : view.Apart) (key : Key) (text : String) :
    (view.put key text).Apart := by
  intro other hr
  rw [View.put, Table.contains_erase] at hr
  simp only [Bool.and_eq_true, Bool.not_eq_true', decide_eq_false_iff_not] at hr
  rw [View.put, Table.find?_set, if_neg hr.1]
  exact h other hr.2

theorem Apart.remove {view : View σ} (h : view.Apart) (key : Key) : (view.remove key).Apart := by
  intro other hr
  rw [View.remove, Table.find?_erase]
  by_cases ho : other = key
  · rw [if_pos ho]
  · rw [View.remove, Table.contains_set, decide_eq_false ho, Bool.false_or] at hr
    rw [if_neg ho]
    exact h other hr

theorem Apart.take {stores : Stores σ ω} {state : View σ × ω} (h : state.1.Apart) (step : Step σ) :
    ((View.take stores step).runOn state).2.1.Apart := by
  cases step with
  | get key => exact h
  | put key text => exact h.put key text
  | remove key => exact h.remove key
  | clear => exact apart_clear state.1
  | commit order =>
    rw [View.take, Action.runOn_map]
    exact apart_fresh state.1.cache
  | rollback => exact apart_fresh state.1.cache

theorem Apart.takeAll {stores : Stores σ ω} {state : View σ × ω} (h : state.1.Apart)
    (steps : List (Step σ)) : (View.takeAll stores steps state).1.Apart := by
  induction steps generalizing state with
  | nil => exact h
  | cons step rest ih => exact ih (h.take step)

theorem Reachable.apart {view : View σ} (h : view.Reachable) : view.Apart := by
  obtain ⟨ω, stores, world, cache, steps, rfl⟩ := h
  exact (apart_fresh cache).takeAll steps

theorem view_takeAll_get (stores : Stores σ ω) (keys : List Key) (state : View σ × ω) :
    (takeAll stores (keys.map Step.get) state).1 = state.1 := by
  induction keys generalizing state with
  | nil => rfl
  | cons key rest ih => exact ih _

end ResultCache.View
