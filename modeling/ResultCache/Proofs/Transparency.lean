import ResultCache.Proofs.Commit
import ResultCache.Proofs.Databases
import ResultCache.Proofs.QueryCourses

/-! # One session cannot be told from its engine -/

namespace ResultCache

variable {σ δ ω β η : Type}

def Request.isQuery : Request σ δ → Bool
  | query .. => true
  | _ => false

/-- The replies to the queries among some requests that are served one after the other, and the
world afterwards. -/
def Request.answers {ω : Type} (serve : Request σ δ → Action ω Reply) :
    List (Request σ δ) → ω → List (Except Error Reply) × ω
  | [], world => ([], world)
  | request :: rest, world =>
    match (serve request).runOn world with
    | (reply, world) =>
      match answers serve rest world with
      | (later, world) => (if request.isQuery then reply :: later else later, world)

theorem Request.answers_cons {ω : Type} (serve : Request σ δ → Action ω Reply)
    (request : Request σ δ) (rest : List (Request σ δ)) (world : ω) :
    answers serve (request :: rest) world =
      (if request.isQuery then
        ((serve request).runOn world).1 :: (answers serve rest ((serve request).runOn world).2).1
        else (answers serve rest ((serve request).runOn world).2).1,
      (answers serve rest ((serve request).runOn world).2).2) := rfl

namespace Database

variable {engine : Engine σ δ} (db : Database engine β η)

/-- The request is a query, a cursor, an update, a commit or a rollback, and uses no cache but the
given one. Queries have a key, which is one of the given keys, are no calls with output parameters,
and stream their rows to the inbox if anywhere; updates flush the cache. -/
def Admits (cache : NamedCache σ) (keys : Set Key) : Request σ δ → Prop
  | .query st params bounds handler =>
    (∀ other, st.cache = some other → other = cache) ∧
      ¬ (st.type = .callable ∧ st.hasOutput = true) ∧
      (∃ key ∈ keys, st.lookupKey params bounds db.environment = .ok key) ∧
      ∀ handle, handler = some handle → ∃ keep : Row → η → η, ∀ row d,
        db.snapshot (handle row d) = (db.snapshot d).deliver keep [row]
  | .cursor st _ _ => ∀ other, st.cache = some other → other = cache
  | .update st _ => st.cache = some cache ∧ st.flushCache = true
  | .commit _ _ | .rollback _ => True
  | .flushStatements | .close _ _ | .clearLocalCache => False

/-- The text is what a query with the key would store in a state of the database. -/
def Fresh (state : β) (key : Key) (text : String) : Prop :=
  ∃ rows, db.answer state key.components = .ok rows ∧ text = (Json.ofRows rows).compact

/-- Every text that a store keeps for one of the keys is fresh. -/
def Holds (keys : Set Key) (state : β) (texts : Texts) : Prop :=
  ∀ key ∈ keys, ∀ text, texts key.storageKey = some text → db.Fresh state key text

/-- The invariant of a session. What is staged is fresh in the current state; what the store keeps
is fresh in the durable state, and in the current one too unless the cache is to be cleared. -/
structure Coherent [DecidableEq σ] {stores : Stores σ ω} (maps : MapFamily stores)
    (cache : NamedCache σ) (keys : Set Key) (tx : Transaction σ) (current durable : β)
    (world : ω) : Prop where
  healthy : maps.healthy world cache.store
  within : tx.Within {cache} keys
  kept : ∀ key, (tx.viewOf cache).removals.contains key = false
  staged : ∀ key text, (tx.viewOf cache).writes.find? key = some text → db.Fresh current key text
  shared : (tx.viewOf cache).cleared = false → db.Holds keys current (maps.held world cache.store)
  settled : db.Holds keys durable (maps.held world cache.store)

section Coherent

variable [DecidableEq σ] {stores : Stores σ ω} {maps : MapFamily stores} {cache : NamedCache σ}
  {keys : Set Key} {tx : Transaction σ} {current durable : β} {world : ω} {db}

theorem coherent_of_empty (h : tx.views = Table.empty) (healthy : maps.healthy world cache.store)
    (shared : db.Holds keys current (maps.held world cache.store))
    (settled : db.Holds keys durable (maps.held world cache.store)) :
    db.Coherent maps cache keys tx current durable world := by
  have hfresh : tx.viewOf cache = View.fresh cache := by
    rw [Transaction.viewOf, h]
    rfl
  refine ⟨healthy, ?_, fun key => ?_, fun key text hw => ?_, fun _ => shared, settled⟩
  · constructor <;> intro id view hv <;> rw [h] at hv <;> cases hv
  · rw [hfresh]
    rfl
  · rw [hfresh] at hw
    cases hw

private theorem Coherent.stage {f : View σ → View σ} {current' : β}
    (h : db.Coherent maps cache keys tx current durable world)
    (hcache : ∀ view, (f view).cache = view.cache) (within : (f (tx.viewOf cache)).Within keys)
    (kept : ∀ key, (f (tx.viewOf cache)).removals.contains key = false)
    (staged : ∀ key text, (f (tx.viewOf cache)).writes.find? key = some text →
      db.Fresh current' key text)
    (shared : (f (tx.viewOf cache)).cleared = false →
      db.Holds keys current' (maps.held world cache.store)) :
    db.Coherent maps cache keys (tx.stage cache f) current' durable world where
  healthy := h.healthy
  within := Transaction.within_stage h.within (oneStore_singleton cache) rfl hcache within
  kept := by
    rw [Transaction.viewOf_stage_self]
    exact kept
  staged := by
    rw [Transaction.viewOf_stage_self]
    exact staged
  shared := by
    rw [Transaction.viewOf_stage_self]
    exact shared
  settled := h.settled

private theorem Coherent.clear (h : db.Coherent maps cache keys tx current durable world)
    (current' : β) : db.Coherent maps cache keys (tx.clear cache) current' durable world :=
  h.stage (fun _ => rfl) (View.within_clear _ _) (fun _ => rfl) (fun _ _ hw => by cases hw)
    fun hc => by cases hc

private theorem Coherent.flushed (h : db.Coherent maps cache keys tx current durable world)
    {st : Statement σ} (hst : ∀ other, st.cache = some other → other = cache) :
    db.Coherent maps cache keys (tx.flushed st) current durable world := by
  unfold Transaction.flushed
  cases hc : st.cache with
  | none => exact h
  | some other =>
    rw [hst other hc]
    cases st.flushCache with
    | false => exact h
    | true => exact h.clear current

private theorem Coherent.put (h : db.Coherent maps cache keys tx current durable world) {key : Key}
    (hk : key ∈ keys) {text : String} (fresh : db.Fresh current key text) :
    db.Coherent maps cache keys (tx.putText cache key text) current durable world := by
  refine h.stage (fun _ => rfl) ((Transaction.viewOf_within h.within cache).put hk text) ?_ ?_
    h.shared
  · intro other
    rw [View.put, Table.contains_erase, h.kept, Bool.and_false]
  · intro other t hw
    rw [View.put, Table.find?_set] at hw
    split at hw
    · rename_i ho
      cases hw
      exact ho ▸ fresh
    · exact h.staged other t hw

private theorem Coherent.viewOf_cache (h : db.Coherent maps cache keys tx current durable world) :
    (tx.viewOf cache).cache = cache :=
  Transaction.viewOf_cache h.within (oneStore_singleton cache) rfl

private theorem Coherent.getText (h : db.Coherent maps cache keys tx current durable world)
    {key : Key} (hk : key ∈ keys) :
    ∃ seen after, (Transaction.getText stores cache key).runOn (tx, world) =
        (.ok seen, (tx.stage cache id, after)) ∧
      (∀ text, seen = some text → db.Fresh current key text) ∧
      db.Coherent maps cache keys (tx.stage cache id) current durable after := by
  have hcache := h.viewOf_cache
  obtain ⟨hheld, hkeeps⟩ := View.world_get maps (tx.viewOf cache) key world
  have apart : (tx.viewOf cache).removals.contains key = true →
      (tx.viewOf cache).writes.find? key = none := by
    rw [h.kept]
    exact nofun
  have hanswer := View.answer_get maps apart (hcache.symm ▸ h.healthy)
  refine ⟨_, _, by rw [Transaction.runOn_getText, hanswer], fun text hseen => ?_, ?_⟩
  · rw [hcache] at hseen
    cases hc : (tx.viewOf cache).cleared with
    | true =>
      rw [hc] at hseen
      cases hseen
    | false =>
      rw [hc] at hseen
      cases hw : (tx.viewOf cache).writes.find? key with
      | some staged =>
        simp only [View.fate, hw, Option.getD_some, Bool.false_eq_true, if_false,
          Option.some.injEq] at hseen
        exact hseen ▸ h.staged key staged hw
      | none =>
        simp only [View.fate, hw, h.kept, hc, Bool.or_self, Option.getD_none, Bool.false_eq_true,
          if_false] at hseen
        exact h.shared hc key hk text hseen
  · have hstage := h.stage (f := id) (fun _ => rfl) (Transaction.viewOf_within h.within cache)
      h.kept h.staged h.shared
    exact ⟨hkeeps _ h.healthy, hstage.within, hstage.kept, hstage.staged,
      hheld.symm ▸ hstage.shared, hheld.symm ▸ hstage.settled⟩

private theorem Coherent.get (h : db.Coherent maps cache keys tx current durable world)
    (survive : ∀ key ∈ keys, ∀ state rows, db.answer state key.components = .ok rows →
      decodeStored Json.rows (Json.ofRows rows).compact = .ok rows) {key : Key} (hk : key ∈ keys)
    {found : Except Error (Option (List Row))} {tx' : Transaction σ} {after : ω}
    (read : (Transaction.get stores Json.rows cache key).runOn (tx, world) =
      (found, (tx', after))) :
    (∀ e, found ≠ .error e) ∧
      (∀ rows, found = .ok (some rows) → db.answer current key.components = .ok rows) ∧
      db.Coherent maps cache keys tx' current durable after := by
  obtain ⟨seen, middle, hget, hfresh, hcoherent⟩ := h.getText hk
  rw [Transaction.runOn_get, hget] at read
  cases seen with
  | none =>
    cases read
    exact ⟨nofun, nofun, hcoherent⟩
  | some text =>
    obtain ⟨rows, hrows, rfl⟩ := hfresh text rfl
    dsimp only at read
    rw [survive key hk _ rows hrows] at read
    cases read
    refine ⟨nofun, fun found hfound => ?_, hcoherent⟩
    cases hfound
    exact hrows

theorem Coherent.commit (h : db.Coherent maps cache keys tx current durable world)
    (inj : Set.InjOn Key.storageKey keys) (order : CommitOrder σ) :
    ∃ after, (Transaction.commitIn stores order).runOn (tx, world) = (.ok (), (tx.next, after)) ∧
      db.Coherent maps cache keys tx.next current current after := by
  have sep : Separate {cache} keys := ⟨oneStore_singleton cache, oneId_singleton cache, inj⟩
  obtain ⟨after, hrun, hheld, hkeeps⟩ := Transaction.commitIn_of_healthy maps h.within order world
    fun other ho => ho ▸ h.healthy
  rw [Transaction.published_order h.within sep] at hheld
  have hshared : db.Holds keys current (maps.held after cache.store) := by
    intro key hk text ht
    rw [hheld, Transaction.published_store h.within sep _ rfl,
      View.published_storageKey (Transaction.viewOf_within h.within cache) inj _ hk] at ht
    cases hw : (tx.viewOf cache).writes.find? key with
    | some staged =>
      simp only [View.fate, hw, Option.getD_some, Option.some.injEq] at ht
      exact ht ▸ h.staged key staged hw
    | none =>
      cases hc : (tx.viewOf cache).cleared with
      | true => simp [View.fate, hw, hc] at ht
      | false =>
        simp only [View.fate, hw, h.kept, hc, Bool.or_self, Option.getD_none, Bool.false_eq_true,
          if_false] at ht
        exact h.shared hc key hk text ht
  exact ⟨after, hrun, coherent_of_empty rfl (hkeeps _ h.healthy) hshared hshared⟩

end Coherent

/-! ## The session next to the engine alone -/

theorem query_alike {st : Statement σ} {params : Parameters} {bounds : RowBounds}
    {handler : Option (RowHandler δ)} {cache : NamedCache σ} {keys : Set Key}
    (admits : db.Admits cache keys (.query st params bounds handler)) {d bare : δ}
    (same : db.snapshot d = db.snapshot bare) :
    let served := (engine.query st params bounds handler).runOn d
    let alone := (engine.query st params bounds handler).runOn bare
    served.1 = alone.1 ∧ db.snapshot served.2 = db.snapshot alone.2 ∧
      (db.snapshot served.2).current = (db.snapshot d).current ∧
      (db.snapshot served.2).durable = (db.snapshot d).durable := by
  intro served alone
  obtain ⟨-, -, ⟨key, -, hkey⟩, hhandler⟩ := admits
  cases handler with
  | none =>
    obtain ⟨hserved, hsnap⟩ := db.query hkey d
    obtain ⟨halone, hsnap'⟩ := db.query hkey bare
    refine ⟨?_, ?_, congrArg Snapshot.current hsnap, congrArg Snapshot.durable hsnap⟩
    · rw [hserved, halone, same]
    · rw [hsnap, hsnap', same]
  | some handle =>
    obtain ⟨keep, hkeep⟩ := hhandler handle rfl
    obtain ⟨hserved, hsnap⟩ := db.streamed hkey hkeep d
    obtain ⟨halone, hsnap'⟩ := db.streamed hkey hkeep bare
    refine ⟨?_, ?_, (congrArg Snapshot.current hsnap).trans rfl,
      (congrArg Snapshot.durable hsnap).trans rfl⟩
    · rw [hserved, halone, same]
    · rw [hsnap, hsnap', same]

/-- The state of a session next to the world of the engine alone. -/
structure Matches [DecidableEq σ] {stores : Stores σ ω} (maps : MapFamily stores)
    (cache : NamedCache σ) (keys : Set Key) (state : Session.State σ (δ × ω)) (bare : δ) :
    Prop where
  coherent : db.Coherent maps.beside cache keys state.1 (db.snapshot state.2.1).current
    (db.snapshot state.2.1).durable state.2
  same : db.snapshot state.2.1 = db.snapshot bare

section Matches

variable [DecidableEq σ] {stores : Stores σ ω} {maps : MapFamily stores} {cache : NamedCache σ}
  {keys : Set Key} {tx : Transaction σ} {d bare : δ} {world : ω} {db}

private theorem Coherent.move {current durable : β}
    (h : db.Coherent maps.beside cache keys tx current durable (d, world)) (d' : δ) :
    db.Coherent maps.beside cache keys tx current durable (d', world) :=
  ⟨h.healthy, h.within, h.kept, h.staged, h.shared, h.settled⟩

private theorem Matches.of_same {tx' : Transaction σ} {d' bare' : δ}
    (h : db.Coherent maps.beside cache keys tx' (db.snapshot d).current (db.snapshot d).durable
      (d, world))
    (current : (db.snapshot d').current = (db.snapshot d).current)
    (durable : (db.snapshot d').durable = (db.snapshot d).durable)
    (same : db.snapshot d' = db.snapshot bare') :
    db.Matches maps cache keys (tx', (d', world)) bare' where
  coherent := by
    rw [current, durable]
    exact h.move d'
  same := same

private theorem Coherent.asked {st : Statement σ} {params : Parameters} {bounds : RowBounds}
    {handler : Option (RowHandler δ)}
    (h : db.Coherent maps.beside cache keys tx (db.snapshot d).current (db.snapshot d).durable
      (d, world))
    (admits : db.Admits cache keys (.query st params bounds handler))
    (same : db.snapshot d = db.snapshot bare) {result : Except Error (List Row)} {last : δ × ω}
    (asked : ((Session.over engine stores).engine.query st params bounds
      (handler.map besideHandler)).runOn (d, world) = (result, last)) :
    let alone := (engine.query st params bounds handler).runOn bare
    result = alone.1 ∧ db.Matches maps cache keys (tx, last) alone.2 := by
  obtain ⟨hanswer, hsame, hcurrent, hdurable⟩ := db.query_alike admits same
  obtain ⟨hrun, hsecond⟩ := Session.of_query_over handler asked
  obtain ⟨d', world'⟩ := last
  obtain rfl : world' = world := hsecond
  simp only [hrun] at hanswer hsame hcurrent hdurable
  exact ⟨hanswer, .of_same h hcurrent hdurable hsame⟩

private theorem Coherent.read {st : Statement σ} {params : Parameters} {bounds : RowBounds}
    {handler : Option (RowHandler (δ × ω))} {current durable : β}
    (h : db.Coherent maps.beside cache keys (tx.flushed st) current durable (d, world))
    (survive : ∀ key ∈ keys, ∀ state rows, db.answer state key.components = .ok rows →
      decodeStored Json.rows (Json.ofRows rows).compact = .ok rows)
    (honly : ∀ other, st.cache = some other → other = cache) {key : Key} (hk : key ∈ keys)
    (hkey : engine.lookupKey st params bounds d = .ok key) {other : NamedCache σ} {used : Key}
    (keyed : Session.Keyed (Session.over engine stores) st params bounds handler (d, world) other
      used) {found : Except Error (Option (List Row))} {tx' : Transaction σ} {after : δ × ω}
    (read : (Transaction.get stores.beside Json.rows other used).runOn
      (tx.flushed st, (d, world)) = (found, (tx', after))) :
    other = cache ∧ used = key ∧ (∃ world', after = (d, world')) ∧ (∀ e, found ≠ .error e) ∧
      (∀ rows, found = .ok (some rows) → db.answer current key.components = .ok rows) ∧
      db.Coherent maps.beside cache keys tx' current durable after := by
  obtain rfl := honly _ keyed.cached
  obtain rfl := Except.ok.inj (hkey.symm.trans keyed.keyed)
  have hfirst := (Transaction.of_get_beside maps read).1
  exact ⟨rfl, rfl, ⟨after.2, Prod.ext hfirst rfl⟩, h.get survive hk read⟩

theorem Matches.query (h : db.Matches maps cache keys (tx, (d, world)) bare)
    (survive : ∀ key ∈ keys, ∀ state rows, db.answer state key.components = .ok rows →
      decodeStored Json.rows (Json.ofRows rows).compact = .ok rows)
    {st : Statement σ} {params : Parameters} {bounds : RowBounds}
    {handler : Option (RowHandler δ)}
    (admits : db.Admits cache keys (.query st params bounds handler)) :
    let served := ((Session.over engine stores).query st params bounds
      (handler.map besideHandler)).runOn (tx, (d, world))
    let alone := (engine.query st params bounds handler).runOn bare
    served.1 = alone.1 ∧ db.Matches maps cache keys served.2 alone.2 := by
  intro served alone
  have ⟨honly, houtput, ⟨key, hk, hkey⟩, _⟩ := admits
  have hlookup := (db.lookupKey st params bounds d).trans hkey
  have hflushed := h.coherent.flushed honly
  obtain ⟨asked, result, after, last, hquery, -, course⟩ := Session.goesACourse
    (Session.over engine stores) st params bounds (handler.map besideHandler) tx (d, world) []
  rw [show served = _ from hquery]
  cases course with
  | direct _ asked => exact hflushed.asked admits h.same asked
  | refused _ refused => cases (if_neg houtput).symm.trans refused
  | keyless _ _ unkeyed => cases hlookup.symm.trans unkeyed
  | unread keyed read =>
    obtain ⟨-, -, -, hread, -⟩ := hflushed.read survive honly hk hlookup keyed read
    exact absurd rfl (hread _)
  | hit keyed read =>
    -- The engine is not asked, and would have answered the same.
    obtain ⟨rfl, rfl, ⟨_, rfl⟩, -, hrows, hcoherent⟩ :=
      hflushed.read survive honly hk hlookup keyed read
    obtain rfl := Option.map_eq_none_iff.mp keyed.unstreamed
    obtain ⟨halone, hbare⟩ := db.query hkey bare
    refine ⟨?_, .of_same hcoherent rfl rfl (h.same.trans hbare.symm)⟩
    rw [show alone.1 = _ from halone, ← h.same]
    exact (hrows _ rfl).symm
  | failed keyed read asked =>
    obtain ⟨rfl, rfl, ⟨_, rfl⟩, -, -, hcoherent⟩ :=
      hflushed.read survive honly hk hlookup keyed read
    obtain rfl := Option.map_eq_none_iff.mp keyed.unstreamed
    exact hcoherent.asked admits h.same asked
  | answered keyed read asked =>
    obtain ⟨rfl, rfl, ⟨_, rfl⟩, -, -, hcoherent⟩ :=
      hflushed.read survive honly hk hlookup keyed read
    obtain rfl := Option.map_eq_none_iff.mp keyed.unstreamed
    have hrows := (db.query hkey d).1
    rw [(Session.of_query_over none asked).1] at hrows
    exact (hcoherent.put hk ⟨_, hrows.symm, rfl⟩).asked admits h.same asked

private theorem Matches.cursor (h : db.Matches maps cache keys (tx, (d, world)) bare)
    {st : Statement σ} (hst : ∀ other, st.cache = some other → other = cache) (params : Parameters)
    (bounds : RowBounds) :
    db.Matches maps cache keys
      (((Session.over engine stores).cursor st params bounds).runOn (tx, (d, world))).2
      ((engine.cursor st params bounds).runOn bare).2 := by
  have hsnap := db.cursor st params bounds
  have hserved : (((Session.over engine stores).cursor st params bounds).runOn (tx, (d, world))).2 =
      (tx.flushed st, (((engine.cursor st params bounds).runOn d).2, world)) := by
    rw [Session.runOn_cursor]
    rfl
  rw [hserved]
  refine .of_same (h.coherent.flushed hst) ?_ ?_ ?_
  · rw [hsnap]
  · rw [hsnap]
  · rw [hsnap, hsnap, h.same]

private theorem Matches.update (h : db.Matches maps cache keys (tx, (d, world)) bare)
    {st : Statement σ}
    (hc : st.cache = some cache) (hf : st.flushCache = true) (params : Parameters) :
    db.Matches maps cache keys
      (((Session.over engine stores).update st params).runOn (tx, (d, world))).2
      ((engine.update st params).runOn bare).2 := by
  have hsnap := db.update st params
  have hclear : tx.flushed st = tx.clear cache := by
    simp only [Transaction.flushed, hc, hf, if_true]
  have hserved : (((Session.over engine stores).update st params).runOn (tx, (d, world))).2 =
      (tx.clear cache, (((engine.update st params).runOn d).2, world)) := by
    rw [Session.runOn_update, hclear]
    rfl
  have hdurable : (db.snapshot ((engine.update st params).runOn d).2).durable =
      (db.snapshot d).durable := by
    rw [hsnap]
    rfl
  rw [hserved]
  constructor
  · rw [hdurable]
    exact (h.coherent.clear _).move _
  · rw [hsnap, hsnap, h.same]

private theorem Matches.commit (h : db.Matches maps cache keys (tx, (d, world)) bare)
    (inj : Set.InjOn Key.storageKey keys) (order : CommitOrder σ) (required : Bool) :
    db.Matches maps cache keys
      (((Session.over engine stores).commitIn order required).runOn (tx, (d, world))).2
      ((engine.commit required).runOn bare).2 := by
  obtain ⟨d', hengine, hsnap⟩ := db.commit required d
  obtain ⟨bare', hbare, hsnap'⟩ := db.commit required bare
  obtain ⟨⟨d'', after⟩, hcommit, hcoherent⟩ := (h.coherent.move d').commit inj order
  have hd : d'' = d' := by
    have hfirst := Transaction.first_commitIn_beside stores tx d' world order
    rw [hcommit] at hfirst
    exact hfirst
  subst hd
  have hserved : (((Session.over engine stores).commitIn order required).runOn
      (tx, (d, world))).2 = (tx.next, (d'', after)) := by
    have hover : ((Session.over engine stores).engine.commit required).runOn (d, world) =
        (.ok (), (d'', world)) := by
      have hrun := Action.runOn_onFirst (engine.commit required) d world
      rw [hengine] at hrun
      exact hrun
    rw [Session.runOn_commitIn, hover]
    exact congrArg Prod.snd hcommit
  rw [hserved, hbare]
  constructor
  · rw [hsnap]
    exact hcoherent
  · rw [hsnap, hsnap', h.same]

private theorem Matches.rollback (h : db.Matches maps cache keys (tx, (d, world)) bare)
    (required : Bool) :
    db.Matches maps cache keys
      (((Session.over engine stores).rollback required).runOn (tx, (d, world))).2
      ((engine.rollback required).runOn bare).2 := by
  have hserved : (((Session.over engine stores).rollback required).runOn (tx, (d, world))).2 =
      (if required then tx.rollback else tx,
        (((engine.rollback required).runOn d).2, world)) := rfl
  rw [hserved]
  cases required with
  | false =>
    have hsnap := db.unforced
    refine .of_same h.coherent ?_ ?_ ?_
    · rw [hsnap]
    · rw [hsnap]
    · rw [hsnap, hsnap, h.same]
  | true =>
    obtain ⟨d', hengine, hsnap⟩ := db.forced d
    obtain ⟨bare', hbare, hsnap'⟩ := db.forced bare
    rw [hengine, hbare]
    constructor
    · rw [hsnap]
      exact coherent_of_empty rfl h.coherent.healthy h.coherent.settled h.coherent.settled
    · rw [hsnap, hsnap', h.same]

/-- Whatever is asked, queries are answered alike, and the session and the engine alone go on to
match. -/
theorem Matches.serve {state : Session.State σ (δ × ω)} (h : db.Matches maps cache keys state bare)
    (survive : ∀ key ∈ keys, ∀ state rows, db.answer state key.components = .ok rows →
      decodeStored Json.rows (Json.ofRows rows).compact = .ok rows)
    (inj : Set.InjOn Key.storageKey keys) {request : Request σ δ}
    (admits : db.Admits cache keys request) :
    let served := ((Session.over engine stores).serve request.beside).runOn state
    let alone := (engine.serve request).runOn bare
    (request.isQuery = true → served.1 = alone.1) ∧
      db.Matches maps cache keys served.2 alone.2 := by
  obtain ⟨tx, d, world⟩ := state
  cases request with
  | query st params bounds handler =>
    obtain ⟨hanswer, hmatches⟩ := h.query survive admits
    simp only [Session.serve, Request.beside, Engine.serve, Action.runOn_map]
    exact ⟨fun _ => congrArg (Except.map Reply.rows) hanswer, hmatches⟩
  | cursor st params bounds =>
    simp only [Session.serve, Request.beside, Engine.serve, Action.runOn_map]
    exact ⟨fun hq => absurd hq Bool.false_ne_true, h.cursor admits params bounds⟩
  | update st params =>
    simp only [Session.serve, Request.beside, Engine.serve, Action.runOn_map]
    exact ⟨fun hq => absurd hq Bool.false_ne_true, h.update admits.1 admits.2 params⟩
  | flushStatements => cases admits
  | commit required order =>
    simp only [Session.serve, Request.beside, Engine.serve, Action.runOn_map]
    exact ⟨fun hq => absurd hq Bool.false_ne_true, h.commit inj order required⟩
  | rollback required =>
    simp only [Session.serve, Request.beside, Engine.serve, Action.runOn_map]
    exact ⟨fun hq => absurd hq Bool.false_ne_true, h.rollback required⟩
  | close forceRollback order => cases admits
  | clearLocalCache => cases admits

end Matches

/-- A session that has a healthy, empty cache to itself answers every query as the engine alone
does when it is asked the same, whatever is asked in between, and leaves the database and what
handlers keep as the engine alone does. -/
theorem answers_session_eq_answers_engine [DecidableEq σ] {stores : Stores σ ω}
    (maps : MapFamily stores) (cache : NamedCache σ) {keys : Set Key}
    (inj : Set.InjOn Key.storageKey keys)
    (survive : ∀ key ∈ keys, ∀ state rows, db.answer state key.components = .ok rows →
      decodeStored Json.rows (Json.ofRows rows).compact = .ok rows)
    (script : List (Request σ δ)) (admits : ∀ request ∈ script, db.Admits cache keys request)
    (d : δ) (world : ω) (healthy : maps.healthy world cache.store)
    (empty : maps.held world cache.store = fun _ => none) :
    let session := Session.over engine stores
    let served := Request.answers (fun request => session.serve request.beside) script
      (.first, (d, world))
    let alone := Request.answers engine.serve script d
    served.1 = alone.1 ∧ db.snapshot served.2.2.1 = db.snapshot alone.2 := by
  intro session
  have run : ∀ (script : List (Request σ δ)), (∀ request ∈ script, db.Admits cache keys request) →
      ∀ state bare, db.Matches maps cache keys state bare →
      let served := Request.answers (fun request => session.serve request.beside) script state
      let alone := Request.answers engine.serve script bare
      served.1 = alone.1 ∧ db.snapshot served.2.2.1 = db.snapshot alone.2 := by
    intro script
    induction script with
    | nil => exact fun _ state bare h => ⟨rfl, h.same⟩
    | cons request rest ih =>
      intro hscript state bare h
      obtain ⟨hanswer, hmatches⟩ := h.serve survive inj (hscript request (by simp))
      obtain ⟨hlater, hsnap⟩ := ih (fun r hr => hscript r (List.mem_cons_of_mem _ hr)) _ _ hmatches
      simp only [Request.answers_cons]
      refine ⟨?_, hsnap⟩
      rw [hlater]
      cases hq : request.isQuery with
      | false => rfl
      | true => rw [hanswer hq]
  have nothing : ∀ state, db.Holds keys state (maps.held world cache.store) := by
    intro state key _ text ht
    rw [empty] at ht
    cases ht
  exact run script admits _ _ ⟨coherent_of_empty rfl healthy (nothing _) (nothing _), rfl⟩

/-- How a switch stands is asked before and after it is turned, turned back, and turned for good. -/
theorem answers_session_of_switch :
    let users : NamedCache Nat := ⟨"users", 0⟩
    let shelf : Shelf := [.map (.new .empty)]
    let find : Statement Nat :=
      { (Statement.ofCommand .select "find" "?" : Statement Nat) with cache := some users }
    let turn : Statement Nat :=
      { (Statement.ofCommand .update "turn" "!" : Statement Nat) with cache := some users }
    let ask (handler : Option (RowHandler (Snapshot Bool Nat))) : Request Nat (Snapshot Bool Nat) :=
      .query find .none .unbounded handler
    let script := [ask none, ask none, .update turn .none, ask none, .rollback true, ask none,
      .update turn .none, .cursor find .none .unbounded, ask none, .commit true .staged,
      .rollback false, ask none, ask (some fun _ d => { d with inbox := d.inbox + 1 })]
    let session := Session.over switch Shelf.stores
    let served := Request.answers (fun request => session.serve request.beside) script
      (.first, (⟨false, false, 0⟩, shelf))
    served.1 = [.ok (.rows [switchRow false]), .ok (.rows [switchRow false]),
        .ok (.rows [switchRow true]), .ok (.rows [switchRow false]), .ok (.rows [switchRow true]),
        .ok (.rows [switchRow true]), .ok (.rows [])] ∧
      ofSwitch.snapshot served.2.2.1 = ⟨true, true, 1⟩ := by
  intro users shelf find turn ask script session served
  let keys : Set Key := { key | find.lookupKey .none .unbounded (some "test") = .ok key }
  have inj : Set.InjOn Key.storageKey keys := by
    intro a ha b hb _
    exact Except.ok.inj (ha.symm.trans hb)
  have survive : ∀ key ∈ keys, ∀ state rows, ofSwitch.answer state key.components = .ok rows →
      decodeStored Json.rows (Json.ofRows rows).compact = .ok rows := by
    intro key _ state rows h
    obtain rfl := Except.ok.inj h
    cases state <;> rfl
  have asks : ∀ handler, (∀ handle, handler = some handle → ∃ keep : Row → Nat → Nat, ∀ row d,
      handle row d = Snapshot.deliver keep [row] d) →
      ofSwitch.Admits users keys (ask handler) := by
    intro handler hkeep
    refine ⟨fun other ho => (Option.some.inj ho).symm, by simp [find, Statement.ofCommand], ?_,
      hkeep⟩
    exact ⟨_, rfl, rfl⟩
  have admits : ∀ request ∈ script, ofSwitch.Admits users keys request := by
    have counted : ofSwitch.Admits users keys
        (ask (some fun _ d => { d with inbox := d.inbox + 1 })) :=
      asks _ fun handle hh => ⟨fun _ inbox => inbox + 1, fun row d => by cases hh; rfl⟩
    have plain : ofSwitch.Admits users keys (ask none) := asks none nofun
    have turns : ofSwitch.Admits users keys (.update turn .none) := ⟨rfl, rfl⟩
    have opens : ofSwitch.Admits users keys (.cursor find .none .unbounded) :=
      fun other ho => (Option.some.inj ho).symm
    simp only [script, List.forall_mem_cons]
    exact ⟨plain, plain, turns, plain, trivial, plain, turns, opens, plain, trivial, trivial, plain,
      counted, by simp⟩
  have healthy : Shelf.maps.healthy shelf users.store := ⟨_, rfl, fun _ => rfl⟩
  have empty : Shelf.maps.held shelf users.store = fun _ => none := rfl
  have halone : Request.answers switch.serve script ⟨false, false, 0⟩ =
      ([.ok (.rows [switchRow false]), .ok (.rows [switchRow false]),
        .ok (.rows [switchRow true]), .ok (.rows [switchRow false]), .ok (.rows [switchRow true]),
        .ok (.rows [switchRow true]), .ok (.rows [])], ⟨true, true, 1⟩) := rfl
  obtain ⟨hserved, hsnap⟩ := ofSwitch.answers_session_eq_answers_engine Shelf.maps users inj survive
    script admits ⟨false, false, 0⟩ shelf healthy empty
  -- Named, so that the run itself is not evaluated when the two sides are compared.
  have hrun : served = Request.answers
      (fun request => (Session.over switch Shelf.stores).serve request.beside) script
      (.first, (⟨false, false, 0⟩, shelf)) := rfl
  rw [← hrun, halone] at hserved hsnap
  exact ⟨hserved, hsnap⟩

end Database
end ResultCache
