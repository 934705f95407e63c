import ResultCache.Proofs.StoreCalls

/-! # Transactions that follow others -/

namespace ResultCache

variable {σ ω α β : Type}

namespace Action

/-- A step does the same after a change of the world, which the change outlasts. -/
def CommutesWith (change : ω → ω) (action : Action ω α) : Prop :=
  ∀ world, action.runOn (change world) = ((action.runOn world).1, change (action.runOn world).2)

variable {change : ω → ω}

private theorem commutesWith_pure (x : α) : CommutesWith change (pure x) := fun _ => rfl

private theorem commutesWith_ofResult (result : Except Error α) :
    CommutesWith change (ofResult result) :=
  fun _ => rfl

theorem CommutesWith.bind {action : Action ω α} {next : α → Action ω β}
    (h : action.CommutesWith change) (hnext : ∀ x, (next x).CommutesWith change) :
    (action >>= next).CommutesWith change := by
  intro world
  rw [runOn_bind, runOn_bind, h world]
  rcases action.runOn world with ⟨e | x, after⟩
  · rfl
  · exact hnext x after

theorem CommutesWith.map (f : α → β) {action : Action ω α} (h : action.CommutesWith change) :
    (f <$> action).CommutesWith change := by
  rw [← bind_pure_comp]
  exact h.bind fun x => commutesWith_pure (f x)

end Action

/-- The same transaction, after some more that ended before it. -/
def Transaction.later (ended : Nat) (tx : Transaction σ) : Transaction σ :=
  { tx with generation := ended + tx.generation }

private theorem Transaction.next_eq_later (tx : Transaction σ) :
    tx.next = first.later (tx.generation + 1) := rfl

namespace Session

def later (ended : Nat) (state : State σ ω) : State σ ω := (state.1.later ended, state.2)

def Moment.later (ended : Nat) (moment : Moment σ ω) : Moment σ ω :=
  ⟨moment.step, Session.later ended moment.before,
    (moment.outcome.1, Session.later ended moment.outcome.2)⟩

variable (ended : Nat)

private theorem commutesWith_onWorld (action : Action ω α) :
    (onWorld action : Action (State σ ω) α).CommutesWith (later ended) := fun _ => rfl

private theorem commutesWith_flushIfRequired (st : Statement σ) :
    (flushIfRequired st : Action (State σ ω) Unit).CommutesWith (later ended) := by
  unfold flushIfRequired
  cases st.cache with
  | none => exact Action.commutesWith_pure ()
  | some cache =>
    cases st.flushCache with
    | false => exact Action.commutesWith_pure ()
    | true => exact fun _ => rfl

private theorem commutesWith_get (stores : Stores σ ω) (reader : Json.Reader α)
    (cache : NamedCache σ)
    (key : Key) : (Transaction.get stores reader cache key).CommutesWith (later ended) := by
  have hread : (Transaction.getText stores cache key).CommutesWith (later ended) := fun _ => rfl
  refine hread.bind fun found => ?_
  cases found with
  | none => exact Action.commutesWith_pure none
  | some text => exact (Action.commutesWith_ofResult (decodeStored reader text)).map some

private theorem commutesWith_commitIn (stores : Stores σ ω) (order : CommitOrder σ) :
    (Transaction.commitIn stores order).CommutesWith (later ended) := by
  rintro ⟨tx, world⟩
  rw [later, Transaction.runOn_commitIn, Transaction.runOn_commitIn]
  rfl

section Operations

variable (s : Session σ ω)

private theorem commutesWith_cachedQuery (ask : Action ω Key) (cache : NamedCache σ)
    (st : Statement σ) (params : Parameters) (bounds : RowBounds) :
    (s.cachedQuery ask cache st params bounds).CommutesWith (later ended) := by
  refine (Action.commutesWith_ofResult (refuseOutput st)).bind fun _ => ?_
  refine (commutesWith_onWorld ended ask).bind fun key => ?_
  refine (commutesWith_get ended s.stores Json.rows cache key).bind fun found => ?_
  cases found with
  | some rows => exact Action.commutesWith_pure rows
  | none =>
    refine (commutesWith_onWorld ended _).bind fun rows => ?_
    exact Action.CommutesWith.bind (fun _ => rfl) fun _ => Action.commutesWith_pure rows

private theorem commutesWith_query (st : Statement σ) (params : Parameters) (bounds : RowBounds)
    (handler : Option (RowHandler ω)) :
    (s.query st params bounds handler).CommutesWith (later ended) := by
  refine (commutesWith_flushIfRequired ended st).bind fun _ => ?_
  cases st.cache with
  | none => exact commutesWith_onWorld ended _
  | some cache =>
    dsimp only
    split
    · exact commutesWith_onWorld ended _
    · exact s.commutesWith_cachedQuery ended (s.askKey st params bounds) cache st params bounds

private theorem commutesWith_rollback (required : Bool) :
    (s.rollback required).CommutesWith (later ended) := by
  rintro ⟨tx, world⟩
  cases required <;> rfl

private theorem commutesWith_closeIn (order : CommitOrder σ) (forceRollback : Bool) :
    (s.closeIn order forceRollback).CommutesWith (later ended) := by
  rintro ⟨tx, world⟩
  have hcommit := commutesWith_commitIn ended s.stores order (tx, world)
  rw [closeIn, Action.runOn_ofFunction, Action.runOn_ofFunction]
  cases forceRollback with
  | true =>
    simp only [if_true, later, runOn_onWorld]
    rcases (s.engine.close true).runOn world with ⟨_ | _, _⟩ <;> rfl
  | false =>
    simp only [Bool.false_eq_true, if_false, hcommit]
    rcases (Transaction.commitIn s.stores order).runOn (tx, world) with ⟨result, tx', after⟩
    simp only [later, runOn_onWorld]
    rcases (s.engine.close false).runOn after with ⟨_ | _, _⟩ <;> rfl

private theorem commutesWith_serve (request : Request σ ω) :
    (s.serve request).CommutesWith (later ended) := by
  cases request with
  | query st params bounds handler =>
    exact (s.commutesWith_query ended st params bounds handler).map _
  | cursor st params bounds =>
    refine Action.CommutesWith.map _ ((commutesWith_flushIfRequired ended st).bind fun _ => ?_)
    exact commutesWith_onWorld ended _
  | update st params =>
    refine Action.CommutesWith.map _ ((commutesWith_flushIfRequired ended st).bind fun _ => ?_)
    exact commutesWith_onWorld ended _
  | flushStatements => exact (commutesWith_onWorld ended _).map _
  | commit required order =>
    refine Action.CommutesWith.map _ ((commutesWith_onWorld ended _).bind fun _ => ?_)
    exact commutesWith_commitIn ended s.stores order
  | rollback required => exact (s.commutesWith_rollback ended required).map _
  | close forceRollback order => exact (s.commutesWith_closeIn ended order forceRollback).map _
  | clearLocalCache => exact fun _ => rfl

theorem commutesWith_take (step : Step σ ω) : (s.take step).CommutesWith (later ended) := by
  cases step with
  | request request => exact (s.commutesWith_serve ended request).map _
  | lookupKey st params bounds => exact fun _ => rfl
  | isCached st key => exact fun _ => rfl
  | isClosed => exact fun _ => rfl
  | environment => exact fun _ => rfl

theorem history_later (script : List (Step σ ω)) (state : State σ ω) :
    s.history script (later ended state) = (s.history script state).map (.later ended) := by
  induction script generalizing state with
  | nil => rfl
  | cons step rest ih =>
    have hstep := s.commutesWith_take ended step state
    rw [history, history, List.map_cons, hstep, ih]
    rfl

/-- A run that begins a transaction goes as one that begins a session. -/
theorem history_next (script : List (Step σ ω)) (tx : Transaction σ) (world : ω) :
    s.history script (tx.next, world) =
      (s.history script (.first, world)).map (.later (tx.generation + 1)) := by
  rw [← s.history_later, later, ← Transaction.next_eq_later]

end Operations

end Session
end ResultCache
