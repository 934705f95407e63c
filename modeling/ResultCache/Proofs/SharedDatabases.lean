import ResultCache.Proofs.Beside
import ResultCache.Proofs.Databases
import ResultCache.Proofs.Interleaving

/-! # Databases that sessions share -/

namespace ResultCache

variable {ι σ δ ω β : Type}

/-- What can be told of a database that several sessions share: the committed state, and what the
updates that each session has not committed do to a state. -/
structure Standing (ι β : Type) where
  committed : β
  pending : ι → β → β

namespace Standing

variable [DecidableEq ι]

def seen (standing : Standing ι β) (who : ι) : β := standing.pending who standing.committed

def change (who : ι) (f : β → β) (standing : Standing ι β) : Standing ι β :=
  { standing with pending := Function.update standing.pending who (f ∘ standing.pending who) }

def commit (who : ι) (standing : Standing ι β) : Standing ι β :=
  ⟨standing.seen who, Function.update standing.pending who id⟩

def rollback (who : ι) (standing : Standing ι β) : Standing ι β :=
  { standing with pending := Function.update standing.pending who id }

variable (standing : Standing ι β) {who other : ι}

theorem pending_change_of_ne (h : other ≠ who) (f : β → β) :
    (standing.change who f).pending other = standing.pending other := Function.update_of_ne h _ _

@[simp] theorem pending_commit_self : (standing.commit who).pending who = id :=
  Function.update_self _ _ _

theorem pending_commit_of_ne (h : other ≠ who) :
    (standing.commit who).pending other = standing.pending other := Function.update_of_ne h _ _

@[simp] theorem pending_rollback_self : (standing.rollback who).pending who = id :=
  Function.update_self _ _ _

theorem pending_rollback_of_ne (h : other ≠ who) :
    (standing.rollback who).pending other = standing.pending other := Function.update_of_ne h _ _

end Standing

/-- A database that the engines of several sessions share. What a query answers is a function of the
state that its session sees and of the components of the key. Updates are pending until they are
committed, and commits and forced rollbacks succeed. -/
structure SharedDatabase [DecidableEq ι] (engines : ι → Engine σ δ) (β : Type) where
  standing : δ → Standing ι β
  environment : ι → Option String
  answer : β → List Value → Except Error (List Row)
  change : Statement σ → Parameters → β → β
  lookupKey : ∀ who st params bounds d,
    (engines who).lookupKey st params bounds d = st.lookupKey params bounds (environment who)
  answers : ∀ {who st params bounds key}, st.lookupKey params bounds (environment who) = .ok key →
    ∀ d, (((engines who).query st params bounds none).runOn d).1 =
      answer ((standing d).seen who) key.components
  query : ∀ who st params bounds (handler : Option (RowHandler δ)),
    (∀ handle, handler = some handle → ∀ row d, standing (handle row d) = standing d) → ∀ d,
    standing (((engines who).query st params bounds handler).runOn d).2 = standing d
  update : ∀ who st params d, standing (((engines who).update st params).runOn d).2 =
    (standing d).change who (change st params)
  commit : ∀ who required d, ∃ after, ((engines who).commit required).runOn d = (.ok (), after) ∧
    standing after = (standing d).commit who
  rollback : ∀ who d, ∃ after, ((engines who).rollback true).runOn d = (.ok (), after) ∧
    standing after = (standing d).rollback who

namespace System

variable [DecidableEq ι]

/-- One session serves one request. -/
def attend (engines : ι → Engine σ δ) (stores : Stores σ ω) (system : System ι σ (δ × ω))
    (turn : ι × Request σ δ) : System ι σ (δ × ω) :=
  system.become turn.1
    (((Session.over (engines turn.1) stores).serve turn.2.beside).runOn
      (system.transactions turn.1, system.world)).2

end System

namespace Request

/-- A commit or a rollback that is required. -/
def ends : Request σ δ → Bool
  | commit .. => true
  | rollback required => required
  | _ => false

/-- Requests of sessions that share a cache: queries with that cache or none, whose handlers leave
the database alone, updates that flush the cache, commits, and rollbacks that are required. -/
def Shares [DecidableEq ι] {engines : ι → Engine σ δ} (db : SharedDatabase engines β)
    (cache : NamedCache σ) : Request σ δ → Prop
  | query st _ _ handler => (∀ c, st.cache = some c → c = cache) ∧
    ∀ handle, handler = some handle → ∀ row d, db.standing (handle row d) = db.standing d
  | update st _ => st.cache = some cache ∧ st.flushCache = true
  | commit .. => True
  | rollback required => required = true
  | _ => False

end Request

/-- The last request of a session, if there is one, ended its transaction. -/
def Idle [DecidableEq ι] (who : ι) (script : List (ι × Request σ δ)) : Prop :=
  ∀ turn, (script.filter fun turn => turn.1 = who).getLast? = some turn → turn.2.ends = true

section Idle

variable [DecidableEq ι] {who : ι} {script : List (ι × Request σ δ)} {turn : ι × Request σ δ}

theorem idle_concat_self (script : List (ι × Request σ δ)) (turn : ι × Request σ δ) :
    Idle turn.1 (script ++ [turn]) ↔ turn.2.ends = true := by
  simp [Idle, List.filter_append]

theorem idle_concat_of_ne (h : turn.1 ≠ who) :
    Idle who (script ++ [turn]) ↔ Idle who script := by
  simp [Idle, List.filter_append, h]

end Idle

end ResultCache
