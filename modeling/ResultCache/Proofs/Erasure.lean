import ResultCache.Proofs.Dependence
import ResultCache.Proofs.ReadIsolation

/-! # Transactions that are not committed leave no trace -/

namespace ResultCache

variable {ι α β : Type}

/-- Sets the kinds of calls that fail on the map store at a place. -/
def Shelf.setFailures (shelf : Shelf) (place : Nat) (failures : Table CallKind String)
    (failure : Option String) : Shelf :=
  match shelf[place]? with
  | some (.map store) => shelf.set place (.map { store with failures, failure })
  | _ => shelf

/-- What happens in a run: an owner carries out an operation, or other kinds of calls begin to fail
on the map store at a place. -/
inductive Turn (ι α : Type) where
  | owner (who : ι) (op : Operation Nat α)
  | outside (place : Nat) (failures : Table CallKind String) (failure : Option String)

/-- A turn and, if it was an owner's, the answer and what the owner's transaction has staged
afterwards. -/
structure Moment (ι α : Type) where
  turn : Turn ι α
  reply : Option (Except Error (Option α) × Table String (View Nat))

namespace Turn

variable [DecidableEq ι]

def operationOf? (who : ι) : Turn ι α → Option (Operation Nat α)
  | owner other op => if other = who then some op else none
  | outside .. => none

/-- Turns, or what came of them, without those of an owner's transaction with the given number,
where its first transaction has number zero. -/
def without (turn : β → Turn ι α) (who : ι) : Nat → List β → List β
  | _, [] => []
  | 0, entry :: rest =>
    match (turn entry).operationOf? who with
    | none => entry :: without turn who 0 rest
    | some op => if op.ends then rest else without turn who 0 rest
  | n + 1, entry :: rest =>
    match (turn entry).operationOf? who with
    | none => entry :: without turn who (n + 1) rest
    | some op => entry :: without turn who (if op.ends then n else n + 1) rest

/-- How an owner's transaction with the given number ends, if it does. -/
def endOf? (who : ι) (n : Nat) (script : List (Turn ι α)) : Option (Operation Nat α) :=
  ((script.filterMap (operationOf? who)).filter Operation.ends)[n]?

variable {who : ι} {turn : Turn ι α} {op : Operation Nat α}

private theorem endOf?_cons_of_none (hown : turn.operationOf? who = none) (n : Nat)
    (rest : List (Turn ι α)) : endOf? who n (turn :: rest) = endOf? who n rest := by
  rw [endOf?, endOf?, List.filterMap_cons_none hown]

private theorem endOf?_cons_of_not_ends (hown : turn.operationOf? who = some op)
    (hends : op.ends = false)
    (n : Nat) (rest : List (Turn ι α)) : endOf? who n (turn :: rest) = endOf? who n rest := by
  rw [endOf?, endOf?, List.filterMap_cons_some hown, List.filter_cons_of_neg (by simp [hends])]

private theorem endOf?_cons_of_ends (hown : turn.operationOf? who = some op)
    (hends : op.ends = true) (rest : List (Turn ι α)) : endOf? who 0 (turn :: rest) = some op ∧
      ∀ n, endOf? who (n + 1) (turn :: rest) = endOf? who n rest := by
  refine ⟨?_, fun n => ?_⟩
  · rw [endOf?, List.filterMap_cons_some hown, List.filter_cons_of_pos hends,
      List.getElem?_cons_zero]
  · rw [endOf?, endOf?, List.filterMap_cons_some hown, List.filter_cons_of_pos hends,
      List.getElem?_cons_succ]

private theorem eq_owner_of_operationOf? (hown : turn.operationOf? who = some op) :
    turn = .owner who op := by
  cases turn with
  | outside place failures failure => cases hown
  | owner other op' =>
    rw [operationOf?] at hown
    split at hown
    · rename_i ho
      rw [ho, Option.some.inj hown]
    · cases hown

end Turn

namespace System

variable [DecidableEq ι]

/-- The system after a turn. -/
def take (system : System ι Nat Shelf) : Turn ι α → System ι Nat Shelf
  | .owner who op => system.step Shelf.stores (who, op)
  | .outside place failures failure =>
    { system with world := system.world.setFailures place failures failure }

def moment (system : System ι Nat Shelf) (turn : Turn ι α) : Moment ι α where
  turn := turn
  reply :=
    match turn with
    | .owner who op => some
      (((op.perform Shelf.stores).runOn (system.transactions who, system.world)).1,
        (op.after (system.transactions who)).views)
    | .outside .. => none

/-- The moments of a run. -/
def history (system : System ι Nat Shelf) : List (Turn ι α) → List (Moment ι α)
  | [] => []
  | turn :: rest => system.moment turn :: (system.take turn).history rest

def final (system : System ι Nat Shelf) (script : List (Turn ι α)) : System ι Nat Shelf :=
  script.foldl take system

end System

private theorem Shelf.unlogged_setFailures (shelf : Shelf) (place : Nat)
    (failures : Table CallKind String)
    (failure : Option String) : (shelf.setFailures place failures failure).unlogged =
      shelf.unlogged.setFailures place failures failure := by
  have hat : shelf.unlogged[place]? = shelf[place]?.map ShelfStore.unlogged := List.getElem?_map
  rw [setFailures, setFailures, hat]
  rcases shelf[place]? with _ | store | store
  · rfl
  · exact List.map_set
  · rfl

namespace System

/-- Two systems are alike but for some owners: their stores keep the same and fail alike, and the
transactions of all other owners have the same staged. -/
structure AlikeBut (hidden : ι → Prop) (full part : System ι Nat Shelf) : Prop where
  world : full.world.unlogged = part.world.unlogged
  views : ∀ who, ¬ hidden who → (full.transactions who).views = (part.transactions who).views

variable [DecidableEq ι] {hidden : ι → Prop} {full part : System ι Nat Shelf}

theorem AlikeBut.take (h : AlikeBut hidden full part) (turn : Turn ι α)
    (shown : ∀ who op, turn = .owner who op → ¬ hidden who) :
    full.moment turn = part.moment turn ∧ AlikeBut hidden (full.take turn) (part.take turn) := by
  cases turn with
  | outside place failures failure =>
    refine ⟨rfl, ?_, h.views⟩
    rw [System.take, System.take, Shelf.unlogged_setFailures, Shelf.unlogged_setFailures, h.world]
  | owner who op =>
    have hviews := h.views who (shown who op rfl)
    obtain ⟨hanswer, hworld⟩ := Operation.perform_eq Shelf.stores_dependOn hviews h.world op
    refine ⟨?_, hworld, fun other ho => ?_⟩
    · simp only [moment, hanswer, views_after hviews op]
    · rw [System.take, System.take, transactions_step, transactions_step]
      by_cases hm : other = who
      · rw [hm, Function.update_self, Function.update_self]
        exact views_after hviews op
      · rw [Function.update_of_ne hm, Function.update_of_ne hm]
        exact h.views other ho

theorem AlikeBut.history (h : AlikeBut (fun _ => False) full part) (script : List (Turn ι α)) :
    full.history script = part.history script ∧
      AlikeBut (fun _ => False) (full.final script) (part.final script) := by
  induction script generalizing full part with
  | nil => exact ⟨rfl, h⟩
  | cons turn rest ih =>
    obtain ⟨hmoment, hnext⟩ := h.take turn fun _ _ _ => id
    obtain ⟨hrest, hfinal⟩ := ih hnext
    exact ⟨by rw [System.history, System.history, hmoment, hrest], hfinal⟩

variable {who : ι}

/-- An operation of the hidden owner that is no commit changes nothing that is seen. -/
theorem AlikeBut.skip (h : AlikeBut (· = who) full part) (op : Operation Nat α)
    (hop : ∀ order, op ≠ .commit order) : AlikeBut (· = who) (full.take (.owner who op)) part := by
  refine ⟨?_, fun other ho => ?_⟩
  · rw [← h.world]
    exact Operation.tell_perform Shelf.stores_dependOn hop (full.transactions who) full.world
  · rw [System.take, transactions_step, Function.update_of_ne ho]
    exact h.views other ho

/-- Once the hidden owner rolls back nothing is hidden any more. -/
theorem AlikeBut.reveal (h : AlikeBut (· = who) full part)
    (empty : (part.transactions who).views = Table.empty) :
    AlikeBut (fun _ => False) (full.take (.owner who (.rollback : Operation Nat α))) part := by
  have hskip := h.skip (.rollback : Operation Nat α) nofun
  refine ⟨hskip.world, fun other _ => ?_⟩
  by_cases ho : other = who
  · rw [System.take, transactions_step, ho, Function.update_self, empty]
    rfl
  · exact hskip.views other ho

private theorem AlikeBut.without_zero (h : AlikeBut (· = who) full part)
    (empty : (part.transactions who).views = Table.empty) (script : List (Turn ι α))
    (aborted : ∀ order, Turn.endOf? who 0 script ≠ some (.commit order)) :
    part.history (Turn.without id who 0 script) =
        Turn.without Moment.turn who 0 (full.history script) ∧
      (full.final script).world.unlogged =
        (part.final (Turn.without id who 0 script)).world.unlogged := by
  induction script generalizing full part with
  | nil => exact ⟨rfl, h.world⟩
  | cons turn rest ih =>
    have hturn : (full.moment turn).turn = turn := rfl
    rw [System.history, Turn.without, Turn.without, id, hturn]
    cases hown : turn.operationOf? who with
    | none =>
      have shown : ∀ other op, turn = .owner other op → ¬ other = who := by
        rintro other op rfl rfl
        simp [Turn.operationOf?] at hown
      obtain ⟨hmoment, hnext⟩ := h.take _ shown
      have hempty : ((part.take turn).transactions who).views = Table.empty := by
        cases turn with
        | outside place failures failure => exact empty
        | owner other op =>
          rw [System.take, transactions_step,
            Function.update_of_ne (Ne.symm (shown other op rfl))]
          exact empty
      rw [Turn.endOf?_cons_of_none hown] at aborted
      obtain ⟨hrest, hfinal⟩ := ih hnext hempty aborted
      exact ⟨by rw [System.history, hmoment, hrest], hfinal⟩
    | some op =>
      obtain rfl := Turn.eq_owner_of_operationOf? hown
      dsimp only
      cases hends : op.ends with
      | false =>
        have notCommit : ∀ order, op ≠ .commit order := fun order he => by
          rw [he] at hends
          cases hends
        rw [Turn.endOf?_cons_of_not_ends hown hends] at aborted
        exact ih (h.skip _ notCommit) empty aborted
      | true =>
        rw [(Turn.endOf?_cons_of_ends hown hends rest).1] at aborted
        obtain rfl : op = .rollback := by
          cases op with
          | rollback => rfl
          | commit order => exact absurd rfl (aborted order)
          | _ => cases hends
        obtain ⟨hrest, hfinal⟩ := (h.reveal (α := α) empty).history rest
        exact ⟨hrest.symm, hfinal.world⟩

theorem AlikeBut.without (h : AlikeBut (fun _ => False) full part) (n : Nat)
    (empty : n = 0 → (part.transactions who).views = Table.empty) (script : List (Turn ι α))
    (aborted : ∀ order, Turn.endOf? who n script ≠ some (.commit order)) :
    part.history (Turn.without id who n script) =
        Turn.without Moment.turn who n (full.history script) ∧
      (full.final script).world.unlogged =
        (part.final (Turn.without id who n script)).world.unlogged := by
  induction script generalizing n full part with
  | nil => exact ⟨by cases n <;> rfl, by cases n <;> exact h.world⟩
  | cons turn rest ih =>
    cases n with
    | zero =>
      exact AlikeBut.without_zero ⟨h.world, fun other _ => h.views other id⟩ (empty rfl) _ aborted
    | succ n =>
      have hturn : (full.moment turn).turn = turn := rfl
      obtain ⟨hmoment, hnext⟩ := h.take turn fun _ _ _ => id
      rw [System.history, Turn.without, Turn.without, id, hturn]
      cases hown : turn.operationOf? who with
      | none =>
        rw [Turn.endOf?_cons_of_none hown] at aborted
        obtain ⟨hrest, hfinal⟩ := ih hnext (n + 1) nofun aborted
        exact ⟨congrArg₂ List.cons hmoment.symm hrest, hfinal⟩
      | some op =>
        obtain rfl := Turn.eq_owner_of_operationOf? hown
        dsimp only
        cases hends : op.ends with
        | false =>
          rw [Turn.endOf?_cons_of_not_ends hown hends] at aborted
          obtain ⟨hrest, hfinal⟩ := ih hnext (n + 1) nofun aborted
          exact ⟨congrArg₂ List.cons hmoment.symm hrest, hfinal⟩
        | true =>
          rw [(Turn.endOf?_cons_of_ends hown hends rest).2] at aborted
          have fresh : ((part.take (.owner who op)).transactions who).views = Table.empty := by
            rw [System.take, transactions_step, Function.update_self, Operation.after_of_ends hends]
            rfl
          obtain ⟨hrest, hfinal⟩ := ih hnext n (fun _ => fresh) aborted
          exact ⟨congrArg₂ List.cons hmoment.symm hrest, hfinal⟩

/-- A transaction that is rolled back, or never ended, leaves no trace: without any of its
operations, reads included, every other operation has the same answer and leaves the same staged,
and in the end every store keeps the same. -/
theorem history_without (who : ι) (n : Nat) (script : List (Turn ι α)) (shelf : Shelf)
    (aborted : ∀ order, Turn.endOf? who n script ≠ some (.commit order)) :
    (start shelf).history (Turn.without id who n script) =
        Turn.without Moment.turn who n ((start shelf).history script) ∧
      ((start shelf).final (Turn.without id who n script)).world.held =
        ((start shelf).final script).world.held := by
  have alike : AlikeBut (fun _ => False) (start shelf : System ι Nat Shelf) (start shelf) :=
    ⟨rfl, fun _ _ => rfl⟩
  obtain ⟨hhistory, hfinal⟩ := alike.without n (fun _ => rfl) script aborted
  refine ⟨hhistory, ?_⟩
  rw [← Shelf.held_unlogged, ← hfinal, Shelf.held_unlogged]

/-- One owner stages a clear and a write, and rolls back after puts have begun to fail. The commit
of the other owner fails just as it does without all that. -/
theorem history_without_of_two_owners :
    let users : NamedCache Nat := ⟨"users", 0⟩
    let key : Key := .ofComponents [.text "find"]
    let rows : Payload := .ofRows []
    let script : List (Turn Bool (List Row)) :=
      [.owner true (.put users key rows), .owner false (.put users key rows),
        .outside 0 (Table.empty.set .put "put down") none, .owner true (.get users key Json.rows),
        .owner true (.clear users), .owner true .rollback, .owner false (.commit .staged),
        .owner true (.get users key Json.rows)]
    let system : System Bool Nat Shelf := start [.map (.new .empty)]
    Turn.endOf? true 0 script = some .rollback ∧
      (system.history (Turn.without id true 0 script)).map
          (fun moment => moment.reply.map fun reply => reply.1) =
        [some (.ok none), none, some (.error (.cache (.reported "put down"))), some (.ok none)] ∧
      system.history (Turn.without id true 0 script) =
        Turn.without Moment.turn true 0 (system.history script) ∧
      (system.final (Turn.without id true 0 script)).world.held =
        (system.final script).world.held := by
  intro users key rows script system
  have rolled : Turn.endOf? true 0 script = some .rollback := rfl
  have aborted : ∀ order, Turn.endOf? true 0 script ≠ some (.commit order) := fun order h => by
    rw [rolled] at h
    cases h
  exact ⟨rolled, rfl, history_without true 0 script _ aborted⟩

end System
end ResultCache
