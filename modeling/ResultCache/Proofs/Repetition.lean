import ResultCache.Proofs.Provenance
import ResultCache.Proofs.StoredTexts

/-!
# Asking again

A query that was answered from its text once is answered so again.
-/

namespace ResultCache

variable {σ δ ω : Type}

/-- Queries of the statement may be answered from the cache and do not flush it. -/
structure Statement.Answered (st : Statement σ) (cache : NamedCache σ) : Prop where
  cache : st.cache = some cache
  useCache : st.useCache = true
  noFlush : st.flushCache = false
  noOutput : ¬ (st.type = .callable ∧ st.hasOutput = true)

namespace Transaction

variable (tx : Transaction σ) (cache : NamedCache σ) (key : Key) (text : String)

private theorem viewOf_putText : (tx.putText cache key text).viewOf cache =
    (tx.viewOf cache).put key text := viewOf_stage_self tx cache _

variable {tx cache key} in
private theorem within_putText {caches : Set (NamedCache σ)} {keys : Set Key}
    (hw : tx.Within caches keys)
    (oneStore : ∀ a ∈ caches, ∀ b ∈ caches, a.id = b.id → a.store = b.store) (hc : cache ∈ caches)
    (hkey : key ∈ keys) : (tx.putText cache key text).Within caches keys :=
  within_stage hw oneStore hc (fun _ => rfl) ((viewOf_within hw cache).put hkey text)

end Transaction

namespace Session

section

variable {st : Statement σ} {cache : NamedCache σ} (answered : st.Answered cache)
include answered

private theorem flushed_of_answered (tx : Transaction σ) : tx.flushed st = tx := by
  rw [Transaction.flushed, answered.cache]
  dsimp only
  rw [answered.noFlush, if_neg Bool.false_ne_true]

variable (s : Session σ ω) {params : Parameters} {bounds : RowBounds} {key : Key}
  {tx : Transaction σ} {world : ω} (hk : s.engine.lookupKey st params bounds world = .ok key)
include hk

private theorem keyed_of_answered : Keyed s st params bounds none world cache key :=
  ⟨⟨answered.cache, answered.useCache, rfl⟩, if_neg answered.noOutput, hk⟩

theorem runOn_query_of_text {text : String} {state : State σ ω}
    (h : (Transaction.getText s.stores cache key).runOn (tx, world) = (.ok (some text), state)) :
    (s.query st params bounds none).runOn (tx, world) =
      (decodeStored Json.rows text, state) := by
  rw [runOn_query_of_keyed tx (keyed_of_answered answered s hk), flushed_of_answered answered,
    Transaction.runOn_get, h]
  dsimp only
  cases decodeStored Json.rows text <;> rfl

private theorem runOn_query_of_putText (text : String)
    (uncleared : (tx.viewOf cache).cleared = false) :
    (s.query st params bounds none).runOn (tx.putText cache key text, world) =
      (decodeStored Json.rows text, ((tx.putText cache key text).stage cache id, world)) := by
  refine runOn_query_of_text answered s hk ?_
  have hremoved : ((tx.viewOf cache).put key text).removals.contains key = false := by
    simp [View.put]
  have hwrites : ((tx.viewOf cache).put key text).writes.find? key = some text := by
    simp [View.put]
  have hcleared : ((tx.viewOf cache).put key text).cleared = false := uncleared
  rw [Transaction.runOn_getText, Transaction.viewOf_putText, View.get, hcleared, hremoved, hwrites]
  rfl

private theorem runOn_query_of_absent {after : State σ ω} {rows : List Row} {state : State σ ω}
    (h : (Transaction.getText s.stores cache key).runOn (tx, world) = (.ok none, after))
    (served : (s.query st params bounds none).runOn (tx, world) = (.ok rows, state)) :
    ∃ world', (s.engine.query st params bounds none).runOn after.2 = (.ok rows, world') ∧
      state = (after.1.putText cache key (Json.ofRows rows).compact, world') := by
  have hmiss : (Transaction.get s.stores Json.rows cache key).runOn (tx.flushed st, world) =
      (.ok none, after) := by
    rw [flushed_of_answered answered, Transaction.runOn_get, h]
  rw [runOn_query_of_keyed tx (keyed_of_answered answered s hk), hmiss] at served
  dsimp only at served
  rcases hrun : (s.engine.query st params bounds none).runOn after.2 with ⟨e | rs, world'⟩
  · rw [hrun] at served
    cases served
  · rw [hrun] at served
    cases served
    exact ⟨world', rfl, rfl⟩

end

section

variable [DecidableEq σ] {stores : Stores σ ω} (maps : MapFamily stores)
  {caches : Set (NamedCache σ)} {keys : Set Key} (sep : Separate caches keys)
  {cache : NamedCache σ} (hc : cache ∈ caches) {key : Key} (hkey : key ∈ keys)
include sep hc hkey

theorem getText_after_commitIn {tx : Transaction σ} (hw : tx.Within caches keys) {text : String}
    (staged : (tx.viewOf cache).writes.find? key = some text) {world : δ × ω}
    (healthy : ∀ other ∈ caches, maps.healthy world.2 other.store) {order : CommitOrder σ}
    {state : State σ (δ × ω)}
    (committed : (Transaction.commitIn stores.beside order).runOn (tx, world) =
      (.ok (), state)) :
    ∃ after, (Transaction.getText stores.beside cache key).runOn (.first, state.2) =
      (.ok (some text), (Transaction.first.stage cache id, (state.2.1, after))) := by
  obtain ⟨after, hrun, hstored, hhealthy⟩ :=
    Transaction.held_after_commitIn maps.beside hw sep order world healthy hc hkey staged
  rw [hrun] at committed
  obtain rfl : (tx.next, after) = state := (Prod.mk.inj committed).2
  obtain ⟨seen, later, hget, -, -⟩ :=
    Transaction.getText_beside maps cache key .first after.1 after.2
  have hseen : seen = .ok (some text) :=
    (congrArg Prod.fst hget).symm.trans
      (Transaction.getText_first_of_held maps.beside hhealthy hstored)
  exact ⟨later, hseen ▸ hget⟩

/-- The engine's commit does not touch the stores, so what is staged is what is published. -/
theorem runOn_query_after_commitIn {engine other : Engine σ δ} {st : Statement σ}
    {params : Parameters} {bounds : RowBounds} (answered : st.Answered cache)
    {tx : Transaction σ} (hw : tx.Within caches keys) {text : String}
    (staged : (tx.viewOf cache).writes.find? key = some text) {world : δ × ω}
    (healthy : ∀ other ∈ caches, maps.healthy world.2 other.store) {required : Bool}
    {order : CommitOrder σ} {state : State σ (δ × ω)}
    (committed : ((Session.over engine stores).commitIn order required).runOn (tx, world) =
      (.ok (), state))
    (hk : other.lookupKey st params bounds state.2.1 = .ok key) :
    ∃ after, ((Session.over other stores).query st params bounds none).runOn (.first, state.2) =
      (decodeStored Json.rows text, (Transaction.first.stage cache id, (state.2.1, after))) := by
  rw [runOn_commitIn] at committed
  rcases hengine : ((Session.over engine stores).engine.commit required).runOn world
    with ⟨e | _, between⟩
  · rw [hengine] at committed
    cases committed
  · rw [hengine] at committed
    have hworld : between.2 = world.2 := (congrArg (fun outcome => outcome.2.2) hengine).symm
    obtain ⟨after, hget⟩ := getText_after_commitIn maps sep hc hkey hw staged (hworld ▸ healthy)
      committed
    exact ⟨after, runOn_query_of_text answered (Session.over other stores) hk hget⟩

/-- A query that was not answered from the cache is answered from there when it is asked again, in
the same transaction or in a new session after the commit. The answer is what the stored text of the
rows is read as: the same rows, if every floating-point number is read back as it was, unless more
containers stand inside one another than a reader opens. -/
theorem query_again {engine : Engine σ δ} {st : Statement σ} {params : Parameters}
    {bounds : RowBounds} (answered : st.Answered cache) {tx : Transaction σ}
    (hw : tx.Within caches keys) {d : δ} {calls : List (QueryCall σ)} {world : ω}
    (healthy : ∀ other ∈ caches, maps.healthy world other.store)
    (hk : engine.lookupKey st params bounds d = .ok key)
    (uncleared : (tx.viewOf cache).cleared = false)
    (absent : ((Transaction.getText stores.beside cache key).runOn (tx, ((d, calls), world))).1 =
      .ok none)
    {rows : List Row} {state : State σ ((δ × List (QueryCall σ)) × ω)}
    (served : ((Session.over engine.recording stores).query st params bounds none).runOn
      (tx, ((d, calls), world)) = (.ok rows, state)) :
    let again := decodeStored Json.rows (Json.ofRows rows).compact
    (engine.lookupKey st params bounds state.2.1.1 = .ok key → ∃ tx',
      ((Session.over engine.recording stores).query st params bounds none).runOn state =
        (again, (tx', state.2))) ∧
    (∀ required order committed,
      ((Session.over engine.recording stores).commitIn order required).runOn state =
        (.ok (), committed) →
      ∀ other : Engine σ δ, other.lookupKey st params bounds committed.2.1.1 = .ok key →
        ∃ tx' after, ((Session.over other.recording stores).query st params bounds none).runOn
          (.first, committed.2) = (again, (tx', (committed.2.1, after)))) ∧
    ((∀ row ∈ rows, (Json.ofRow row).Faithful) →
      (Json.Fits Json.maxDepth (Json.ofRows rows) → again = .ok rows) ∧
      (¬ Json.Fits Json.maxDepth (Json.ofRows rows) → ∃ fault, fault.cause = .tooDeep ∧
        again = .error (.cache (.unreadable fault)))) := by
  obtain ⟨seen, after, hget, -, hhealthy⟩ :=
    Transaction.getText_beside maps cache key tx (d, calls) world
  rw [hget] at absent
  obtain rfl : seen = .ok none := absent
  have hlookup : (Session.over engine.recording stores).engine.lookupKey st params bounds
      ((d, calls), world) = .ok key := hk
  obtain ⟨world', hrun, rfl⟩ := runOn_query_of_absent answered _ hlookup hget served
  have hworld : world'.2 = after := by
    have h := Engine.runOn_query_beside engine.recording st params bounds none (d, calls) after
    exact congrArg (fun outcome => outcome.2.2) (hrun.symm.trans h)
  have htouched : ((tx.stage cache id).viewOf cache) = tx.viewOf cache :=
    Transaction.viewOf_stage_self tx cache id
  have hwithin : (tx.stage cache id).Within caches keys :=
    Transaction.within_stage hw sep.oneStore hc (fun _ => rfl) (Transaction.viewOf_within hw cache)
  let text := (Json.ofRows rows).compact
  refine ⟨fun hk' => ?_, fun required order committed hcommit other
    hk' => ?_, Json.decodeStored_ofRows⟩
  · exact ⟨_, runOn_query_of_putText answered (Session.over engine.recording stores) hk' text
      (htouched ▸ uncleared)⟩
  · have hstaged : (((tx.stage cache id).putText cache key text).viewOf cache).writes.find? key =
        some text := by
      rw [Transaction.viewOf_putText, View.put, Table.find?_set, if_pos rfl]
    have hlookup' : other.recording.lookupKey st params bounds committed.2.1 = .ok key := hk'
    obtain ⟨later, hagain⟩ := runOn_query_after_commitIn maps sep hc hkey answered
      (Transaction.within_putText text hwithin sep.oneStore hc hkey) hstaged
      (fun other ho => hworld ▸ hhealthy other.store (healthy other ho)) hcommit hlookup'
    exact ⟨_, later, hagain⟩

end

/-- A switch is asked once: the row that it answered is read from the cache, at once and by a
session that begins after the commit. -/
theorem query_again_of_switch :
    let users : NamedCache Nat := ⟨"users", 0⟩
    let find : Statement Nat :=
      { (Statement.ofCommand .select "find" "?" : Statement Nat) with cache := some users }
    let session := Session.over switch.recording Shelf.stores
    let asked := (session.query find .none .unbounded none).runOn
      (.first, ((⟨false, false, 0⟩, []), [.map (.new .empty)]))
    let again := (session.query find .none .unbounded none).runOn asked.2
    let committed := (session.commitIn .staged true).runOn asked.2
    let later := (session.query find .none .unbounded none).runOn (.first, committed.2.2)
    asked.1 = .ok [switchRow false] ∧ again.1 = asked.1 ∧ again.2.2 = asked.2.2 ∧
      later.1 = asked.1 ∧ later.2.2.1 = committed.2.2.1 := by
  intro users find session asked again committed later
  let key := Key.ofComponents [.text "find", .int 0, .int 2147483647, .text "?", .text "test"]
  have answered : find.Answered users := ⟨rfl, rfl, rfl, by decide⟩
  have sep : Separate {users} ({key} : Set Key) :=
    ⟨oneStore_singleton users, oneId_singleton users, Set.injOn_singleton _ _⟩
  have healthy : ∀ other ∈ ({users} : Set (NamedCache Nat)),
      Shelf.maps.healthy [.map (.new .empty)] other.store := by
    rintro other rfl
    exact ⟨_, rfl, fun _ => rfl⟩
  have hentries : (switchRow false).entries = [("on", .bool false)] := rfl
  have faithful : ∀ row ∈ [switchRow false], (Json.ofRow row).Faithful := by
    intro row hrow
    rw [List.mem_singleton.mp hrow, Json.ofRow, hentries]
    refine .object (List.pairwise_singleton _ _) fun entry he => ?_
    rw [List.mem_singleton.mp he]
    exact .bool false
  have fits : Json.Fits Json.maxDepth (Json.ofRows [switchRow false]) := by
    intro row hrow
    rw [List.mem_singleton.mp hrow, Json.ofRow, hentries]
    intro entry he
    rw [List.mem_singleton.mp he]
    trivial
  have served : (session.query find .none .unbounded none).runOn
      (.first, ((⟨false, false, 0⟩, []), [.map (.new .empty)])) =
        (.ok [switchRow false], asked.2) := rfl
  obtain ⟨hagain, hlater, hrows⟩ := query_again Shelf.maps sep (Set.mem_singleton users)
    (Set.mem_singleton key) answered (Transaction.within_first _ _) healthy rfl rfl rfl served
  obtain ⟨tx, hsecond⟩ := hagain rfl
  obtain ⟨tx', after, hthird⟩ := hlater true .staged committed.2 rfl switch rfl
  have hsame := (hrows faithful).1 fits
  have hagain : again = (.ok [switchRow false], (tx, asked.2.2)) := hsame ▸ hsecond
  have hlater : later = (.ok [switchRow false], (tx', (committed.2.2.1, after))) :=
    hsame ▸ hthird
  have hasked : asked.1 = .ok [switchRow false] := rfl
  exact ⟨hasked, (congrArg Prod.fst hagain).trans hasked.symm, congrArg (·.2.2) hagain,
    (congrArg Prod.fst hlater).trans hasked.symm, congrArg (·.2.2.1) hlater⟩

def numberRow (x : Finite64) : Row := Dictionary.ofList [("a", .float x)]

private theorem numberRow_injective : Function.Injective numberRow := by
  intro x y h
  have hentries : [("a", Json.float x)] = [("a", Json.float y)] := congrArg Dictionary.entries h
  cases hentries
  rfl

private theorem write_numberRow :
    (Json.ofRows [numberRow ⟨⟨0x46b8a6e32246c99d⟩, by decide⟩]).write =
      "[\x7b\"a\":5.0000000000000004e+32\x7d]".toList := by
  decide +kernel

set_option maxRecDepth 20000 in
private theorem rows_numberRow :
    Json.rows Json.maxDepth "[\x7b\"a\":5.0000000000000004e+32\x7d]".toList =
      .ok ([numberRow ⟨⟨0x46b8a6e32246c99c⟩, by decide⟩], []) := by
  rfl

/-- A number whose digits are read as its neighbour: the engine answers `5.0000000000000004e+32`,
and the same query is answered `5e+32` when it is asked again. -/
theorem query_again_of_inexact :
    let users : NamedCache Nat := ⟨"users", 0⟩
    let find : Statement Nat :=
      { (Statement.ofCommand .select "find" "?" : Statement Nat) with cache := some users }
    let answered : List Row := [numberRow ⟨⟨0x46b8a6e32246c99d⟩, by decide⟩]
    let engine := { switch with query := fun _ _ _ _ => pure answered }
    let session := Session.over engine.recording Shelf.stores
    let asked := (session.query find .none .unbounded none).runOn
      (.first, ((⟨false, false, 0⟩, []), [.map (.new .empty)]))
    let again := (session.query find .none .unbounded none).runOn asked.2
    asked.1 = .ok answered ∧
      again.1 = .ok [numberRow ⟨⟨0x46b8a6e32246c99c⟩, by decide⟩] ∧ again.1 ≠ asked.1 := by
  intro users find answered engine session asked again
  let key := Key.ofComponents [.text "find", .int 0, .int 2147483647, .text "?", .text "test"]
  let text := (Json.ofRows answered).compact
  have hstatement : find.Answered users := ⟨rfl, rfl, rfl, by decide⟩
  have hasked : asked.1 = .ok answered := rfl
  have hstate : asked.2 = ((Transaction.first.stage users id).putText users key text, asked.2.2) :=
    rfl
  have htext : text.toList = "[\x7b\"a\":5.0000000000000004e+32\x7d]".toList :=
    String.toList_ofList.trans write_numberRow
  have hread : Json.rows Json.maxDepth text.toList =
      .ok ([numberRow ⟨⟨0x46b8a6e32246c99c⟩, by decide⟩], []) := by
    rw [htext, rows_numberRow]
  have hdecode : decodeStored Json.rows text =
      .ok [numberRow ⟨⟨0x46b8a6e32246c99c⟩, by decide⟩] := by
    rw [decodeStored, Json.decode, Json.decodeWithin_of_ok hread]
    rfl
  have hsecond := runOn_query_of_putText hstatement session
    (show session.engine.lookupKey find .none .unbounded asked.2.2 = .ok key from rfl) text
    (show ((Transaction.first.stage users id).viewOf users).cleared = false from rfl)
  rw [hdecode, ← hstate] at hsecond
  have hagain : again = (.ok [numberRow ⟨⟨0x46b8a6e32246c99c⟩, by decide⟩], _) := hsecond
  have hanswer : again.1 = .ok [numberRow ⟨⟨0x46b8a6e32246c99c⟩, by decide⟩] :=
    congrArg Prod.fst hagain
  refine ⟨hasked, hanswer, fun hsame => ?_⟩
  have hrows := Except.ok.inj (hanswer.symm.trans (hsame.trans hasked))
  exact absurd (numberRow_injective (List.cons.inj hrows).1) (by decide)

end Session
end ResultCache
