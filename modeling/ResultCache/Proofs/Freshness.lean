import Mathlib.Data.List.Induction
import ResultCache.Proofs.Commit
import ResultCache.Proofs.Provenance
import ResultCache.Proofs.QueryCourses
import ResultCache.Proofs.SharedDatabases

/-!
# How fresh a shared cache is

What a commit stores was read earlier in its transaction: the last commit wins, stale or not.
-/

namespace ResultCache

variable {ι σ δ ω β : Type}

namespace Transaction

variable {tx : Transaction σ} {cache : NamedCache σ}

theorem published_source [DecidableEq σ] (hw : tx.Within {cache} Set.univ) (order : CommitOrder σ)
    {held : σ → Texts} {name text : String}
    (h : publishedViews ((order.views tx.views).map order.arrange) held cache.store name =
      some text) :
    (∃ key, tx.Writes cache.id key text ∧ key.storageKey = name) ∨
      (tx.viewOf cache).Spares name ∧ held cache.store name = some text := by
  rcases publishedViews_source h with ⟨view, hm, -, key, hwrite, hname⟩ | ⟨spared, hheld⟩
  · obtain ⟨original, ho, rfl⟩ := List.mem_map.mp hm
    obtain ⟨entry, hentry, rfl⟩ := List.mem_map.mp ((order.views_perm tx.views).mem_iff.mp ho)
    have hfind := (tx.views.find?_eq_some_iff entry.1 entry.2).mpr hentry
    have hid : entry.1 = cache.id := by
      rw [← hw.filed _ _ hfind, Set.mem_singleton_iff.mp (hw.known _ _ hfind)]
    rw [Table.find?_eq_of_perm (order.arrange_same entry.2).writes] at hwrite
    exact .inl ⟨key, ⟨entry.2, hid ▸ hfind, hwrite⟩, hname⟩
  · refine .inr ⟨?_, hheld⟩
    cases hv : tx.views.find? cache.id with
    | none =>
      rw [viewOf, hv]
      exact View.spares_fresh cache name
    | some view =>
      have hm : order.arrange view ∈ (order.views tx.views).map order.arrange :=
        List.mem_map_of_mem ((order.views_perm tx.views).mem_iff.mpr
          (List.mem_map.mpr ⟨(cache.id, view), (tx.views.find?_eq_some_iff _ _).mp hv, rfl⟩))
      have hcache : view.cache = cache := Set.mem_singleton_iff.mp (hw.known _ _ hv)
      have hsame := order.arrange_same view
      rw [viewOf, hv, Option.getD_some]
      exact hsame.spares (spared _ hm (by rw [hsame.cache, hcache]))

private theorem cleared_flushed {st : Statement σ} (hst : ∀ c, st.cache = some c → c = cache)
    (h : ((tx.flushed st).viewOf cache).cleared = false) : (tx.viewOf cache).cleared = false := by
  unfold flushed at h
  cases hc : st.cache with
  | none =>
    rw [hc] at h
    exact h
  | some c =>
    obtain rfl := hst c hc
    simp only [hc] at h
    split at h
    · rw [clear, viewOf_stage_self] at h
      cases h
    · exact h

end Transaction

section Query

variable [DecidableEq σ] {stores : Stores σ ω}

/-- What a query may do to a session and the world: the engine is asked at most once, the stores
keep the same, and nothing is staged but the rows that the engine answers after a miss. -/
structure Fetches (maps : MapFamily stores) (cache : NamedCache σ) (engine : Engine σ δ)
    (st : Statement σ) (params : Parameters) (bounds : RowBounds)
    (handler : Option (RowHandler δ)) (before after : Session.State σ (δ × ω)) : Prop where
  within : after.1.Within {cache} Set.univ
  database : after.2.1 = before.2.1 ∨
    after.2.1 = ((engine.query st params bounds handler).runOn before.2.1).2
  held : maps.held after.2.2 = maps.held before.2.2
  healthy : ∀ store, maps.healthy before.2.2 store → maps.healthy after.2.2 store
  cleared : (after.1.viewOf cache).cleared = false → (before.1.viewOf cache).cleared = false
  writes : ∀ key text, after.1.Writes cache.id key text → before.1.Writes cache.id key text ∨
    handler = none ∧ Session.Missed (Session.over engine stores) st params bounds none before.1
        before.2 cache key ∧
      ∃ rows, ((engine.query st params bounds none).runOn before.2.1).1 = .ok rows ∧
        text = (Json.ofRows rows).compact

theorem fetches_query (maps : MapFamily stores) {cache : NamedCache σ} (engine : Engine σ δ)
    {tx : Transaction σ} (hw : tx.Within {cache} Set.univ) {st : Statement σ}
    (hst : ∀ c, st.cache = some c → c = cache) (params : Parameters) (bounds : RowBounds)
    (world : δ × ω) (handler : Option (RowHandler δ)) :
    Fetches maps cache engine st params bounds handler (tx, world)
      (((Session.over engine stores).query st params bounds
        (handler.map besideHandler)).runOn (tx, world)).2 := by
  obtain ⟨asked, result, after, last, hquery, -, course⟩ := Session.goesACourse
    (Session.over engine stores) st params bounds (handler.map besideHandler) tx world []
  obtain ⟨hfirst, held, healthy⟩ := course.over maps
  have database := hfirst.imp_right fun h => (congrArg Prod.snd h).symm
  have within := course.within hw (oneStore_singleton cache) hst
  have touched : (((tx.flushed st).stage cache id).viewOf cache).cleared = false →
      (tx.viewOf cache).cleared = false := by
    rw [Transaction.viewOf_stage_self]
    exact Transaction.cleared_flushed hst
  rw [hquery]
  cases course with
  | direct | refused | keyless =>
    exact ⟨within, database, held, healthy, Transaction.cleared_flushed hst,
      fun _ _ h => .inl (Transaction.writes_flushed h)⟩
  | unread keyed | hit keyed | failed keyed =>
    obtain rfl := hst _ keyed.cached
    exact ⟨within, database, held, healthy, touched,
      fun _ _ h => .inl (Transaction.writes_flushed (Transaction.writes_touch h))⟩
  | @answered c key rows middle _ keyed read asked =>
    obtain rfl := hst c keyed.cached
    obtain rfl := Option.map_eq_none_iff.mp keyed.unstreamed
    refine ⟨within, database, held, healthy, fun h => ?_, fun other text h => ?_⟩
    · rw [Transaction.putText, Transaction.viewOf_stage_self] at h
      exact touched h
    · rcases Transaction.writes_putText h with ⟨-, rfl, rfl⟩ | h
      · have hrun := (Session.of_query_over none asked).1
        rw [(Transaction.of_get_beside maps read).1] at hrun
        exact .inr ⟨rfl, ⟨keyed, congrArg Prod.fst read⟩, rows, congrArg Prod.fst hrun, rfl⟩
      · exact .inl (Transaction.writes_flushed (Transaction.writes_touch h))

end Query

/-- A query of a session that its engine answered, and the script before it. -/
structure Fetch (ι σ δ : Type) where
  who : ι
  before : List (ι × Request σ δ)
  statement : Statement σ
  params : Parameters
  bounds : RowBounds
  key : Key
  rows : List Row

namespace Fetch

variable (fetch : Fetch ι σ δ) (engines : ι → Engine σ δ) (stores : Stores σ ω)
  (cache : NamedCache σ) (run : List (ι × Request σ δ) → System ι σ (δ × ω))
  (middle : List (ι × Request σ δ))

def turn : ι × Request σ δ :=
  (fetch.who, .query fetch.statement fetch.params fetch.bounds none)

def text : String := (Json.ofRows fetch.rows).compact

/-- The script up to a commit of the session, with the turns since the query. -/
def toCommit (required : Bool) (order : CommitOrder σ) : List (ι × Request σ δ) :=
  fetch.before ++ fetch.turn :: middle ++ [(fetch.who, .commit required order)]

/-- When it was asked, nothing was found under the key and the engine answered the rows. Their text
has been staged ever since, and the session has not ended its transaction. -/
structure Happened : Prop where
  missed : Session.Missed (Session.over (engines fetch.who) stores) fetch.statement fetch.params
    fetch.bounds none ((run fetch.before).transactions fetch.who) (run fetch.before).world cache
    fetch.key
  rows : (((engines fetch.who).query fetch.statement fetch.params fetch.bounds none).runOn
    (run fetch.before).world.1).1 = .ok fetch.rows
  staged : ∀ part, part <+: middle →
    ((run (fetch.before ++ fetch.turn :: part)).transactions fetch.who).Writes cache.id fetch.key
      fetch.text
  unended : ∀ turn ∈ middle, turn.1 = fetch.who → turn.2.ends = false

variable {fetch engines stores cache run middle}

private theorem Happened.concat (h : fetch.Happened engines stores cache run middle)
    {turn : ι × Request σ δ}
    (staged : ((run (fetch.before ++ fetch.turn :: (middle ++ [turn]))).transactions
      fetch.who).Writes cache.id fetch.key fetch.text)
    (unended : turn.1 = fetch.who → turn.2.ends = false) :
    fetch.Happened engines stores cache run (middle ++ [turn]) where
  missed := h.missed
  rows := h.rows
  staged part hp := by
    rcases List.prefix_concat_iff.mp hp with rfl | hp
    · exact staged
    · exact h.staged part hp
  unended := List.forall_mem_append.mpr ⟨h.unended, List.forall_mem_singleton.mpr unended⟩

end Fetch

/-- An entry stands as it was written: it has been there ever since, and no later commit had
anything staged about it. -/
structure Stands [DecidableEq σ] {stores : Stores σ ω} (maps : MapFamily stores)
    (cache : NamedCache σ) (run : List (ι × Request σ δ) → System ι σ (δ × ω))
    (written after : List (ι × Request σ δ)) (name text : String) : Prop where
  held : ∀ part, part <+: after →
    maps.held (run (written ++ part)).world.2 cache.store name = some text
  spared : ∀ earlier who required order later,
    after = earlier ++ (who, .commit required order) :: later →
      (((run (written ++ earlier)).transactions who).viewOf cache).Spares name

section Stands

variable [DecidableEq σ] {stores : Stores σ ω} {maps : MapFamily stores} {cache : NamedCache σ}
  {run : List (ι × Request σ δ) → System ι σ (δ × ω)} {written after : List (ι × Request σ δ)}
  {name text : String}

private theorem stands_nil (held : maps.held (run written).world.2 cache.store name = some text) :
    Stands maps cache run written [] name text where
  held part hp := by rwa [List.prefix_nil.mp hp, List.append_nil]
  spared earlier _ _ _ _ h := absurd h.symm (by simp)

private theorem Stands.concat (h : Stands maps cache run written after name text)
    {turn : ι × Request σ δ}
    (held : maps.held (run (written ++ (after ++ [turn]))).world.2 cache.store name = some text)
    (spared : ∀ required order, turn.2 = .commit required order →
      (((run (written ++ after)).transactions turn.1).viewOf cache).Spares name) :
    Stands maps cache run written (after ++ [turn]) name text where
  held part hp := by
    rcases List.prefix_concat_iff.mp hp with rfl | hp
    · exact held
    · exact h.held part hp
  spared earlier who required order later hsplit := by
    rcases List.eq_nil_or_concat later with rfl | ⟨rest, last, rfl⟩
    · obtain ⟨rfl, hturn⟩ := List.append_inj' hsplit rfl
      obtain rfl := (List.cons.inj hturn).1
      exact spared required order rfl
    · rw [List.concat_eq_append, ← List.cons_append, ← List.append_assoc] at hsplit
      exact h.spared earlier who required order rest (List.append_inj' hsplit rfl).1

end Stands

namespace System

variable [DecidableEq ι] {engines : ι → Engine σ δ}

section Sources

variable (db : SharedDatabase engines β) (stores : Stores σ ω) (cache : NamedCache σ)
  (run : List (ι × Request σ δ) → System ι σ (δ × ω)) (script : List (ι × Request σ δ))

/-- A text that a session has staged was fetched in its transaction, and the session has not updated
since. -/
def StagedFrom (who : ι) (key : Key) (text : String) : Prop :=
  ∃ (fetch : Fetch ι σ δ) (middle : List (ι × Request σ δ)), fetch.who = who ∧ fetch.key = key ∧
    fetch.text = text ∧ script = fetch.before ++ fetch.turn :: middle ∧
    fetch.Happened engines stores cache run middle ∧
    (db.standing (run fetch.before).world.1).pending who =
      (db.standing (run script).world.1).pending who

variable {db stores cache run script}

theorem StagedFrom.concat {who : ι} {key : Key} {text : String}
    (h : StagedFrom db stores cache run script who key text) (turn : ι × Request σ δ)
    (staged : ((run (script ++ [turn])).transactions who).Writes cache.id key text)
    (unended : turn.1 = who → turn.2.ends = false)
    (pending : (db.standing (run (script ++ [turn])).world.1).pending who =
      (db.standing (run script).world.1).pending who) :
    StagedFrom db stores cache run (script ++ [turn]) who key text := by
  obtain ⟨fetch, middle, rfl, rfl, rfl, rfl, happened, hpending⟩ := h
  rw [List.append_assoc, List.cons_append] at staged
  refine ⟨fetch, middle ++ [turn], rfl, rfl, rfl, ?_, happened.concat staged unended,
    hpending.trans pending.symm⟩
  rw [List.append_assoc, List.cons_append]

variable [DecidableEq σ]

variable (db cache run script) in
/-- A stored text was fetched in the transaction that stored it. If no other session committed in
between what could be seen, the text is fresh: it encodes what the database answers now. -/
def StoredFrom (maps : MapFamily stores) (name text : String) : Prop :=
  ∃ (fetch : Fetch ι σ δ) (middle : List (ι × Request σ δ)) (required : Bool)
    (order : CommitOrder σ) (after : List (ι × Request σ δ)),
    script = fetch.toCommit middle required order ++ after ∧
    fetch.key.storageKey = name ∧ fetch.text = text ∧
    fetch.Happened engines stores cache run middle ∧
    Stands maps cache run (fetch.toCommit middle required order) after name text ∧
    ((db.standing (run (fetch.before ++ fetch.turn :: middle)).world.1).committed =
        (db.standing (run fetch.before).world.1).committed →
      db.answer (db.standing (run script).world.1).committed fetch.key.components = .ok fetch.rows)

variable {maps : MapFamily stores}

/-- What was stored stays as fresh as it was while it stands and the database keeps what is
committed. -/
theorem StoredFrom.concat {name text : String} (h : StoredFrom db cache run script maps name text)
    (turn : ι × Request σ δ)
    (held : maps.held (run (script ++ [turn])).world.2 cache.store name = some text)
    (spared : ∀ required order, turn.2 = .commit required order →
      (((run script).transactions turn.1).viewOf cache).Spares name)
    (committed : (db.standing (run (script ++ [turn])).world.1).committed =
      (db.standing (run script).world.1).committed) :
    StoredFrom db cache run (script ++ [turn]) maps name text := by
  obtain ⟨fetch, middle, required, order, after, rfl, hname, htext, happened, stands, hfresh⟩ := h
  rw [List.append_assoc] at held
  refine ⟨fetch, middle, required, order, after ++ [turn], List.append_assoc .., hname, htext,
    happened, stands.concat held spared, fun same => ?_⟩
  rw [committed]
  exact hfresh same

theorem StagedFrom.store {who : ι} {key : Key} {text : String}
    (h : StagedFrom db stores cache run script who key text) (required : Bool)
    (order : CommitOrder σ)
    (held : maps.held (run (script ++ [(who, .commit required order)])).world.2 cache.store
      key.storageKey = some text)
    (committed : (db.standing (run (script ++ [(who, .commit required order)])).world.1).committed =
      (db.standing (run script).world.1).seen who) :
    StoredFrom db cache run (script ++ [(who, .commit required order)]) maps key.storageKey
      text := by
  obtain ⟨fetch, middle, rfl, rfl, htext, rfl, happened, hpending⟩ := h
  refine ⟨fetch, middle, required, order, [], (List.append_nil _).symm, rfl, htext, happened,
    stands_nil held, fun same => ?_⟩
  have hkey : fetch.statement.lookupKey fetch.params fetch.bounds (db.environment fetch.who) =
      .ok fetch.key :=
    (db.lookupKey fetch.who _ _ _ (run fetch.before).world.1).symm.trans happened.missed.keyed
  rw [committed, Standing.seen, same, ← hpending, ← happened.rows, db.answers hkey]
  rfl

end Sources

section Traced

variable [DecidableEq σ] {stores : Stores σ ω} (db : SharedDatabase engines β)
  (maps : MapFamily stores) (cache : NamedCache σ)
  (run : List (ι × Request σ δ) → System ι σ (δ × ω)) (script : List (ι × Request σ δ))

/-- What holds after every script of requests. A session that has updated has staged a clear. -/
structure Traced : Prop where
  within : ∀ who, ((run script).transactions who).Within {cache} Set.univ
  healthy : maps.healthy (run script).world.2 cache.store
  idle : ∀ who, Idle who script → (db.standing (run script).world.1).pending who = id
  uncleared : ∀ who, (((run script).transactions who).viewOf cache).cleared = false →
    (db.standing (run script).world.1).pending who = id
  staged : ∀ who key text, ((run script).transactions who).Writes cache.id key text →
    StagedFrom db stores cache run script who key text
  stored : ∀ name text, maps.held (run script).world.2 cache.store name = some text →
    StoredFrom db cache run script maps name text

variable {db maps cache run script}

private theorem Traced.concat (h : Traced db maps cache run script) {who : ι}
    {request : Request σ δ} {tx : Transaction σ} {d : δ} {world : ω}
    (hnext : run (script ++ [(who, request)]) = (run script).become who (tx, (d, world)))
    (within : tx.Within {cache} Set.univ) (healthy : maps.healthy world cache.store)
    (others : ∀ other, other ≠ who → (db.standing d).pending other =
      (db.standing (run script).world.1).pending other)
    (ended : request.ends = true → (db.standing d).pending who = id)
    (uncleared : (tx.viewOf cache).cleared = false → (db.standing d).pending who = id)
    (staged : ∀ key text, tx.Writes cache.id key text →
      StagedFrom db stores cache run (script ++ [(who, request)]) who key text)
    (stored : ∀ name text,
      maps.held (run (script ++ [(who, request)])).world.2 cache.store name = some text →
        StoredFrom db cache run (script ++ [(who, request)]) maps name text) :
    Traced db maps cache run (script ++ [(who, request)]) := by
  have hworld : (run (script ++ [(who, request)])).world = (d, world) := by rw [hnext, become]
  have hown : (run (script ++ [(who, request)])).transactions who = tx := by
    rw [hnext]
    exact Function.update_self _ _ _
  have hother : ∀ other, other ≠ who → (run (script ++ [(who, request)])).transactions other =
      (run script).transactions other := by
    intro other ho
    rw [hnext]
    exact Function.update_of_ne ho _ _
  have hpending : ∀ other, other ≠ who →
      (db.standing (run (script ++ [(who, request)])).world.1).pending other =
        (db.standing (run script).world.1).pending other := by
    rw [hworld]
    exact others
  refine ⟨fun other => ?_, hworld ▸ healthy, fun other hidle => ?_, fun other hc => ?_,
    fun other key text hw => ?_, stored⟩
  · by_cases ho : other = who
    · rw [ho, hown]
      exact within
    · rw [hother other ho]
      exact h.within other
  · by_cases ho : other = who
    · rw [ho, hworld]
      exact ended ((idle_concat_self script (who, request)).mp (ho ▸ hidle))
    · rw [hpending other ho]
      exact h.idle other ((idle_concat_of_ne (Ne.symm ho)).mp hidle)
  · by_cases ho : other = who
    · rw [ho, hown] at hc
      rw [ho, hworld]
      exact uncleared hc
    · rw [hother other ho] at hc
      rw [hpending other ho]
      exact h.uncleared other hc
  · by_cases ho : other = who
    · rw [ho, hown] at hw
      rw [ho]
      exact staged key text hw
    · have before := h.staged other key text (hother other ho ▸ hw)
      exact before.concat _ hw (fun he => absurd he.symm ho) (hpending other ho)

variable (next : ∀ script turn, run (script ++ [turn]) = (run script).attend engines stores turn)
include next

private theorem Traced.query (h : Traced db maps cache run script) (who : ι) {st : Statement σ}
    (params : Parameters) (bounds : RowBounds) {handler : Option (RowHandler δ)}
    (shares : Request.Shares db cache (.query st params bounds handler)) :
    Traced db maps cache run (script ++ [(who, .query st params bounds handler)]) := by
  have fetches := fetches_query maps (engines who) (h.within who) shares.1 params bounds
    (run script).world handler
  obtain ⟨⟨tx, d, world⟩, hstate⟩ : ∃ state, (((Session.over (engines who) stores).query st params
      bounds (handler.map besideHandler)).runOn
        ((run script).transactions who, (run script).world)).2 = state := ⟨_, rfl⟩
  rw [hstate] at fetches
  have hnext : run (script ++ [(who, .query st params bounds handler)]) =
      (run script).become who (tx, (d, world)) := by
    rw [next, attend, ← hstate]
    simp only [Session.serve, Request.beside, Action.runOn_map]
  have hstanding : db.standing d = db.standing (run script).world.1 := by
    rcases fetches.database with hd | hd
    · exact congrArg db.standing hd
    · exact (congrArg db.standing hd).trans
        (db.query who st params bounds handler shares.2 (run script).world.1)
  have hworld : (run (script ++ [(who, .query st params bounds handler)])).world = (d, world) := by
    rw [hnext, become]
  have staged : ∀ key text, tx.Writes cache.id key text →
      ((run (script ++ [(who, .query st params bounds handler)])).transactions who).Writes cache.id
        key text := by
    rw [hnext, show ((run script).become who (tx, (d, world))).transactions who = tx from
      Function.update_self _ _ _]
    exact fun _ _ hw => hw
  refine h.concat hnext fetches.within (fetches.healthy _ h.healthy) (fun other _ => ?_)
    (fun hends => absurd hends Bool.false_ne_true) (fun hc => ?_) (fun key text hw => ?_)
    fun name text ht => ?_
  · rw [hstanding]
  · rw [hstanding]
    exact h.uncleared who (fetches.cleared hc)
  · rcases fetches.writes key text hw with before | ⟨rfl, missed, rows, hrows, rfl⟩
    · exact (h.staged who key text before).concat _ (staged key text hw) (fun _ => rfl)
        (by rw [hworld, hstanding])
    · let fetch : Fetch ι σ δ := ⟨who, script, st, params, bounds, key, rows⟩
      have happened : fetch.Happened engines stores cache run [] := by
        refine ⟨missed, hrows, fun part hp => ?_, by simp⟩
        rw [List.prefix_nil.mp hp]
        exact staged key _ hw
      exact ⟨fetch, [], rfl, rfl, rfl, rfl, happened, by rw [hworld, hstanding]⟩
  · have before : maps.held (run script).world.2 cache.store name = some text := by
      rwa [hworld, fetches.held] at ht
    exact (h.stored name text before).concat _ ht (fun _ _ hc => by cases hc)
      (by rw [hworld, hstanding])

private theorem Traced.update (h : Traced db maps cache run script) (who : ι) {st : Statement σ}
    (params : Parameters) (shares : Request.Shares db cache (.update st params : Request σ δ)) :
    Traced db maps cache run (script ++ [(who, .update st params)]) := by
  obtain ⟨hcache, hflush⟩ := shares
  have hst : ∀ c, st.cache = some c → c ∈ ({cache} : Set (NamedCache σ)) := fun c hc =>
    Option.some.inj (hc.symm.trans hcache)
  have hflushed : ((run script).transactions who).flushed st =
      ((run script).transactions who).clear cache := by
    simp [Transaction.flushed, hcache, hflush]
  have hstanding := db.update who st params (run script).world.1
  have hnext : run (script ++ [(who, .update st params)]) = (run script).become who
      (((run script).transactions who).flushed st,
        ((((engines who).update st params).runOn (run script).world.1).2,
          (run script).world.2)) := by
    rw [next, attend]
    simp only [Session.serve, Request.beside, Action.runOn_map, Session.runOn_update]
    rfl
  refine h.concat hnext
    (Transaction.within_flushed (h.within who) (oneStore_singleton cache) hst) h.healthy
    (fun other ho => ?_) (fun hends => absurd hends Bool.false_ne_true) (fun hc => ?_)
    (fun key text hw => ?_) fun name text ht => ?_
  · rw [hstanding, Standing.pending_change_of_ne _ ho]
  · rw [hflushed, Transaction.clear, Transaction.viewOf_stage_self] at hc
    cases hc
  · -- The clear has dropped whatever was staged.
    rw [hflushed] at hw
    obtain ⟨view, hv, hw⟩ := hw
    rw [Transaction.clear, Transaction.stage, Table.find?_set, if_pos rfl] at hv
    obtain rfl := Option.some.inj hv
    cases hw
  · have before : maps.held (run script).world.2 cache.store name = some text := by
      rwa [hnext, become] at ht
    refine (h.stored name text before).concat _ ht (fun _ _ hc => by cases hc) ?_
    rw [hnext, become, hstanding]
    rfl

private theorem Traced.rollback (h : Traced db maps cache run script) (who : ι) :
    Traced db maps cache run (script ++ [(who, .rollback true)]) := by
  obtain ⟨d, hrollback, hstanding⟩ := db.rollback who (run script).world.1
  have hnext : run (script ++ [(who, .rollback true)]) = (run script).become who
      (((run script).transactions who).next, (d, (run script).world.2)) := by
    rw [next, attend]
    simp only [Session.serve, Request.beside, Action.runOn_map, Session.rollback,
      Action.runOn_ofFunction, Session.runOn_onWorld]
    rw [show d = (((engines who).rollback true).runOn (run script).world.1).2 by rw [hrollback]]
    rfl
  refine h.concat hnext (Transaction.within_next _ _ _) h.healthy (fun other ho => ?_)
    (fun _ => ?_) (fun _ => ?_) (fun key text hw => absurd hw Transaction.not_writes_next)
    fun name text ht => ?_
  · rw [hstanding, Standing.pending_rollback_of_ne _ ho]
  · rw [hstanding, Standing.pending_rollback_self]
  · rw [hstanding, Standing.pending_rollback_self]
  · have before : maps.held (run script).world.2 cache.store name = some text := by
      rwa [hnext, become] at ht
    refine (h.stored name text before).concat _ ht (fun _ _ hc => by cases hc) ?_
    rw [hnext, become, hstanding]
    rfl

private theorem Traced.commit (h : Traced db maps cache run script) (who : ι) (required : Bool)
    (order : CommitOrder σ) :
    Traced db maps cache run (script ++ [(who, .commit required order)]) := by
  obtain ⟨d, hcommit, hstanding⟩ := db.commit who required (run script).world.1
  obtain ⟨⟨first, world⟩, hrun, hheld, hhealthy⟩ := Transaction.commitIn_of_healthy
    (maps.beside (δ := δ)) (h.within who) order (d, (run script).world.2) (by
      rintro c rfl
      exact h.healthy)
  obtain rfl : first = d := by
    have hfirst := Transaction.first_commitIn_beside stores ((run script).transactions who) d
      (run script).world.2 order
    rwa [hrun] at hfirst
  have hengine : ((Session.over (engines who) stores).engine.commit required).runOn
      (run script).world = (.ok (), (first, (run script).world.2)) := by
    change ((((engines who).commit required).runOn (run script).world.1).1,
      ((((engines who).commit required).runOn (run script).world.1).2, (run script).world.2)) = _
    rw [hcommit]
  have hnext : run (script ++ [(who, .commit required order)]) = (run script).become who
      (((run script).transactions who).next, (first, world)) := by
    rw [next, attend]
    simp only [Session.serve, Request.beside, Action.runOn_map, Session.runOn_commitIn, hengine]
    rw [show (Session.over (engines who) stores).stores = stores.beside from rfl, hrun]
  have hcommitted :
      (db.standing (run (script ++ [(who, .commit required order)])).world.1).committed =
        (db.standing (run script).world.1).seen who := by
    rw [hnext, become, hstanding]
    rfl
  refine h.concat hnext (Transaction.within_next _ _ _) (hhealthy _ h.healthy) (fun other ho => ?_)
    (fun _ => ?_) (fun _ => ?_) (fun key text hw => absurd hw Transaction.not_writes_next)
    fun name text ht => ?_
  · rw [hstanding, Standing.pending_commit_of_ne _ ho]
  · rw [hstanding, Standing.pending_commit_self]
  · rw [hstanding, Standing.pending_commit_self]
  · have hpublished := ht
    rw [hnext, become, show maps.held world = _ from hheld] at hpublished
    rcases Transaction.published_source (h.within who) order hpublished
      with ⟨key, hw, rfl⟩ | ⟨spares, before⟩
    · exact (h.staged who key text hw).store required order ht hcommitted
    · -- Nothing was pending, so the commit changes nothing for the database.
      refine (h.stored name text before).concat _ ht (fun _ _ _ => spares) ?_
      rw [hcommitted, Standing.seen, h.uncleared who spares.uncleared]
      rfl

theorem Traced.append (h : Traced db maps cache run script) {rest : List (ι × Request σ δ)}
    (shares : ∀ turn ∈ rest, turn.2.Shares db cache) :
    Traced db maps cache run (script ++ rest) := by
  induction rest using List.reverseRecOn with
  | nil => rwa [List.append_nil]
  | append_singleton rest turn ih =>
    have before := ih fun t ht => shares t (List.mem_append_left _ ht)
    have hturn := shares turn (by simp)
    rw [← List.append_assoc]
    obtain ⟨who, request⟩ := turn
    cases request with
    | query st params bounds handler => exact before.query next who params bounds hturn
    | update st params => exact before.update next who params hturn
    | commit required order => exact before.commit next who required order
    | rollback required =>
      obtain rfl : required = true := hturn
      exact before.rollback next who
    | cursor st params bounds => exact hturn.elim
    | flushStatements => exact hturn.elim
    | close forceRollback order => exact hturn.elim
    | clearLocalCache => exact hturn.elim

end Traced

end System
end ResultCache
