import ResultCache.Session

/-! # Databases behind engines -/

namespace ResultCache

variable {σ δ β η : Type}

/-- What can be told of the world of an engine: the database as it stands, the database as it was
last made durable, and what handlers have kept of the rows that they were given. -/
structure Snapshot (β η : Type) where
  current : β
  durable : β
  inbox : η

namespace Snapshot

/-- Rows are given to a handler that keeps them in the given way. -/
def deliver (keep : Row → η → η) (rows : List Row) (snapshot : Snapshot β η) : Snapshot β η :=
  { snapshot with inbox := rows.foldl (fun inbox row => keep row inbox) snapshot.inbox }

def change (f : β → β) (snapshot : Snapshot β η) : Snapshot β η :=
  { snapshot with current := f snapshot.current }

def save (snapshot : Snapshot β η) : Snapshot β η := { snapshot with durable := snapshot.current }

def restore (snapshot : Snapshot β η) : Snapshot β η :=
  { snapshot with current := snapshot.durable }

end Snapshot

/-- A database behind an engine. What a query answers, and which rows it streams, is a function of
the current state and the components of the key; only updates change that state. Commits and forced
rollbacks succeed. -/
structure Database (engine : Engine σ δ) (β η : Type) where
  snapshot : δ → Snapshot β η
  environment : Option String
  answer : β → List Value → Except Error (List Row)
  /-- The answer to a query that streams its rows, and the rows that the handler is given. -/
  stream : β → List Value → Except Error (List Row) × List Row
  change : Statement σ → Parameters → β → β
  lookupKey : ∀ st params bounds d,
    engine.lookupKey st params bounds d = st.lookupKey params bounds environment
  query : ∀ {st params bounds key}, st.lookupKey params bounds environment = .ok key → ∀ d,
    ((engine.query st params bounds none).runOn d).1 =
        answer (snapshot d).current key.components ∧
      snapshot ((engine.query st params bounds none).runOn d).2 = snapshot d
  streamed : ∀ {st params bounds key}, st.lookupKey params bounds environment = .ok key →
    ∀ {handle : RowHandler δ} {keep : Row → η → η},
    (∀ row d, snapshot (handle row d) = (snapshot d).deliver keep [row]) → ∀ d,
    ((engine.query st params bounds (some handle)).runOn d).1 =
        (stream (snapshot d).current key.components).1 ∧
      snapshot ((engine.query st params bounds (some handle)).runOn d).2 =
        (snapshot d).deliver keep (stream (snapshot d).current key.components).2
  cursor : ∀ st params bounds d,
    snapshot ((engine.cursor st params bounds).runOn d).2 = snapshot d
  update : ∀ st params d, snapshot ((engine.update st params).runOn d).2 =
    (snapshot d).change (change st params)
  commit : ∀ required d, ∃ after, (engine.commit required).runOn d = (.ok (), after) ∧
    snapshot after = (snapshot d).save
  forced : ∀ d, ∃ after, (engine.rollback true).runOn d = (.ok (), after) ∧
    snapshot after = (snapshot d).restore
  unforced : ∀ d, snapshot ((engine.rollback false).runOn d).2 = snapshot d

def switchRow (on : Bool) : Row := Dictionary.ofList [("on", .bool on)]

/-- A database that is a switch. Updates turn it, and the inbox counts rows. -/
def switch : Engine Nat (Snapshot Bool Nat) where
  query _ _ _ handler := .ofFunction fun d =>
    match handler with
    | none => (.ok [switchRow d.current], d)
    | some handle => (.ok [], handle (switchRow d.current) d)
  cursor _ _ _ := .ofFunction fun d => (.ok [switchRow d.current], d)
  update _ _ := .ofFunction fun d => (.ok 1, d.change not)
  flushStatements := pure []
  commit _ := .ofFunction fun d => (.ok (), d.save)
  rollback required := .ofFunction fun d => (.ok (), if required then d.restore else d)
  close _ := pure ()
  isClosed _ := false
  environment _ := some "test"
  lookupKey st params bounds _ := st.lookupKey params bounds (some "test")
  isCached _ _ _ := false
  clearLocalCache d := d

/-- What a switch does is a function of how it stands. -/
def Database.ofSwitch : Database switch Bool Nat where
  snapshot d := d
  environment := some "test"
  answer on _ := .ok [switchRow on]
  stream on _ := (.ok [], [switchRow on])
  change _ _ := not
  lookupKey _ _ _ _ := rfl
  query _ _ := ⟨rfl, rfl⟩
  streamed _ _ _ hkeep d := ⟨rfl, hkeep (switchRow d.current) d⟩
  cursor _ _ _ _ := rfl
  update _ _ _ := rfl
  commit _ d := ⟨d.save, rfl, rfl⟩
  forced d := ⟨d.restore, rfl, rfl⟩
  unforced _ := rfl

end ResultCache
