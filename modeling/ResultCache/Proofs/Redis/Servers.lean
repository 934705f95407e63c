import Mathlib.Data.List.Dedup
import ResultCache.Proofs.Maps
import ResultCache.Proofs.Redis.Patterns
import ResultCache.Redis.Store

/-!
# Flat servers

A scan may take any number of pages, so an operation has its outcome once it may ask for enough.
-/

namespace ResultCache.Redis

variable {ν α β : Type}

/-- How a server answers the words of a command. -/
abbrev Answering (ν : Type) := List String → ν → Except CallFault Reply × ν

/-! ## Pages -/

/-- A page of a scan. The cursor to go on with is sent as a text. -/
def Reply.ofPage (next : UInt64) (keys : List String) : Reply :=
  .array [.bulk (toString next.toNat), .array (keys.map .bulk)]

@[simp] theorem Reply.page_ofPage (next : UInt64) (keys : List String) :
    (ofPage next keys).page = .ok (next, keys) := by
  have hkeys : (keys.map Reply.bulk).mapM text = .ok keys := by
    induction keys with
    | nil => rfl
    | cons key keys ih =>
      rw [List.map_cons, List.mapM_cons, ih]
      rfl
  rw [ofPage, page, uint64_bulk_toString, hkeys]
  rfl

private theorem Reply.ofPage_inj {next other : UInt64} {keys others : List String} :
    ofPage next keys = ofPage other others ↔ next = other ∧ keys = others := by
  constructor
  · intro h
    have hpage := congrArg page h
    rw [page_ofPage, page_ofPage] at hpage
    exact Prod.mk.inj (Except.ok.inj hpage)
  · rintro ⟨rfl, rfl⟩
    rfl

def scanWords (pattern : String) (cursor : UInt64) : List String :=
  ["SCAN", toString cursor.toNat, "MATCH", pattern, "COUNT", "1000"]

/-- The pages that a server sends to a scan from a cursor on, up to the first one that answers the
cursor zero. -/
inductive Scanned (call : Answering ν) (pattern : String) :
    UInt64 → ν → List (List String) → ν → Prop where
  | last {cursor : UInt64} {world after : ν} {keys : List String}
    (page : call (scanWords pattern cursor) world = (.ok (.ofPage 0 keys), after)) :
    Scanned call pattern cursor world [keys] after
  | more {cursor next : UInt64} {world between after : ν} {keys : List String}
    {pages : List (List String)}
    (page : call (scanWords pattern cursor) world = (.ok (.ofPage next keys), between))
    (goes_on : next ≠ 0) (rest : Scanned call pattern next between pages after) :
    Scanned call pattern cursor world (keys :: pages) after

/-! ## What a server does -/

/-- A command is answered by what the server keeps, and changes that. -/
def Obeys (held : ν → Texts) (call : Answering ν) (words : List String) (reply : Texts → Reply)
    (change : Texts → Texts) : Prop :=
  ∀ world, (call words world).1 = .ok (reply (held world)) ∧
    held (call words world).2 = change (held world)

/-- A server that is one map from keys to texts and lists every key that matches a pattern. -/
structure Flat (call : Answering ν) where
  held : ν → Texts
  get : ∀ key, Obeys held call ["GET", key] (fun texts => (texts key).elim .nil .bulk) id
  put : ∀ key text seconds, 0 < seconds →
    Obeys held call ["SETEX", key, toString seconds, text] (fun _ => .status "OK")
      fun texts => Function.update texts key (some text)
  /-- The reply counts the keys that there were. -/
  remove : ∀ keys, keys ≠ [] → Obeys held call ("DEL" :: keys)
    (fun texts => .int (.ofNat (keys.dedup.countP fun key => (texts key).isSome)))
    fun texts key => if key ∈ keys then none else texts key
  contains : ∀ key, Obeys held call ["EXISTS", key]
    (fun texts => .int (if (texts key).isSome then 1 else 0)) id
  scan : ∀ pattern world, ∃ pages after, Scanned call pattern 0 world pages after ∧
    held after = held world ∧ ∀ key, key ∈ pages.flatten ↔
      (held world key).isSome ∧ Pattern.matchesKey pattern key

/-- No scan lists a key twice. -/
def ListsOnce (call : Answering ν) : Prop :=
  ∀ pattern world pages after, Scanned call pattern 0 world pages after → pages.flatten.Nodup

/-- An action has an outcome as soon as its scans may take enough pages. -/
def Finishes (call : Answering ν) (action : Server ν → Action ν α) (world : ν)
    (outcome : Except Error α × ν) : Prop :=
  ∃ enough, ∀ patience, enough ≤ patience → (action ⟨call, patience⟩).runOn world = outcome

namespace Finishes

variable {call : Answering ν} {action : Server ν → Action ν α} {world between : ν}

theorem of_forall {outcome : Except Error α × ν}
    (h : ∀ patience, (action ⟨call, patience⟩).runOn world = outcome) :
    Finishes call action world outcome := ⟨0, fun patience _ => h patience⟩

theorem bind {next : Server ν → α → Action ν β} {x : α} {outcome : Except Error β × ν}
    (first : Finishes call action world (.ok x, between))
    (second : Finishes call (next · x) between outcome) :
    Finishes call (fun server => action server >>= next server) world outcome := by
  obtain ⟨m, hm⟩ := first
  obtain ⟨n, hn⟩ := second
  refine ⟨max m n, fun patience hp => ?_⟩
  rw [Action.runOn_bind, hm patience (Nat.le_trans (Nat.le_max_left m n) hp)]
  exact hn patience (Nat.le_trans (Nat.le_max_right m n) hp)

private theorem map {x : α} (f : α → β) (h : Finishes call action world (.ok x, between)) :
    Finishes call (fun server => f <$> action server) world (.ok (f x), between) := by
  obtain ⟨m, hm⟩ := h
  refine ⟨m, fun patience hp => ?_⟩
  rw [Action.runOn_map, hm patience hp]
  rfl

end Finishes

namespace Scope

variable {server : Server ν} {world after : ν}

private theorem runOn_ask {words : List String} {reply : Reply} {read : Reply → Except CallFault α}
    {x : α} (hcall : server.call words world = (.ok reply, after)) (hread : read reply = .ok x)
    (failure : CallFault → CacheFault) :
    (ask server words read failure).runOn world = (.ok x, after) := by
  rw [ask, Action.runOn_ofFunction, hcall]
  simp only [hread, Except.mapError]

theorem finishes_ask {call : Answering ν} {words : List String} {reply : Reply}
    {read : Reply → Except CallFault α} {x : α} (hcall : call words world = (.ok reply, after))
    (hread : read reply = .ok x) (failure : CallFault → CacheFault) :
    Finishes call (fun server => ask server words read failure) world (.ok x, after) :=
  Finishes.of_forall fun _ => runOn_ask hcall hread failure

theorem scanPages_succ (server : Server ν) (pattern : String) (n : Nat) (cursor : UInt64) :
    scanPages server pattern (n + 1) cursor =
      ask server (scanWords pattern cursor) Reply.page (.redisScan pattern) >>= fun page =>
        if page.1 = 0 then pure page.2
        else scanPages server pattern n page.1 >>= fun more => pure (page.2 ++ more) := rfl

private theorem runOn_scanPages {pattern : String} {cursor : UInt64} {pages : List (List String)}
    (h : Scanned server.call pattern cursor world pages after) {n : Nat} (hn : pages.length ≤ n) :
    (scanPages server pattern n cursor).runOn world = (.ok pages.flatten, after) := by
  -- A scan takes a page at least, so the number of pages left is a successor.
  induction h generalizing n with
  | last page =>
    obtain ⟨n, rfl⟩ := Nat.exists_eq_add_of_le' hn
    have hpage := runOn_ask page (Reply.page_ofPage _ _) (.redisScan pattern)
    rw [List.length_singleton, scanPages_succ, Action.runOn_bind, hpage]
    simp
  | @more _ next _ _ _ keys pages page goes_on _ ih =>
    obtain ⟨n, rfl⟩ := Nat.exists_eq_add_of_le' (Nat.le_trans (Nat.le_add_left 1 _) hn)
    have hpage := runOn_ask page (Reply.page_ofPage _ _) (.redisScan pattern)
    have hrest := ih (Nat.le_of_succ_le_succ hn)
    rw [scanPages_succ, Action.runOn_bind, hpage]
    simp only [if_neg goes_on]
    rw [Action.runOn_bind, hrest]
    rfl

def deleteAll (server : Server ν) (pieces : List (List String)) : Action ν Unit :=
  pieces.forM fun keys => discard (ask server ("DEL" :: keys) Reply.int64 .redisDelete)

theorem clear_of_isScoped (server : Server ν) {scope : Scope} (h : scope.isScoped = true) :
    clear server scope = scan server scope >>= fun keys => deleteAll server (chunks 500 keys) := by
  rw [clear, if_pos h]
  rfl

theorem size_of_isScoped (server : Server ν) {scope : Scope} (h : scope.isScoped = true) :
    size server scope = List.length <$> scan server scope := by
  rw [size, if_pos h]

end Scope

/-! ## Operations of a handle -/

namespace Flat

variable {call : Answering ν} (flat : Flat call)

def Does (action : Server ν → Action ν α) (world : ν) (answer : α) (texts : Texts) : Prop :=
  ∃ after, Finishes call action world (.ok answer, after) ∧ flat.held after = texts

variable {flat}

theorem Does.map {action : Server ν → Action ν α} {world : ν} {answer : α} {texts : Texts}
    (h : flat.Does action world answer texts) (f : α → β) :
    flat.Does (fun server => f <$> action server) world (f answer) texts := by
  obtain ⟨after, hfinishes, hheld⟩ := h
  exact ⟨after, hfinishes.map f, hheld⟩

variable (flat)

theorem does_ask {words : List String} {reply : Texts → Reply} {change : Texts → Texts}
    (h : Obeys flat.held call words reply change) (world : ν) {read : Reply → Except CallFault α}
    {x : α} (hread : read (reply (flat.held world)) = .ok x) (failure : CallFault → CacheFault) :
    flat.Does (fun server => Scope.ask server words read failure) world x
      (change (flat.held world)) := by
  obtain ⟨hreply, hheld⟩ := h world
  have hcall : call words world = (.ok (reply (flat.held world)), (call words world).2) :=
    Prod.ext hreply rfl
  exact ⟨(call words world).2, Scope.finishes_ask hcall hread failure, hheld⟩

variable (scope : Scope) (world : ν)

theorem does_get (name : String) : flat.Does (Scope.get · scope name) world
    (flat.held world (scope.keyOf name)) (flat.held world) := by
  apply flat.does_ask (flat.get (scope.keyOf name))
  cases flat.held world (scope.keyOf name) <;> rfl

theorem does_put (name text : String) : flat.Does (Scope.put · scope name text) world ()
    (Function.update (flat.held world) (scope.keyOf name) (some text)) := by
  have hseconds : 0 < (max scope.ttl 1).toNat := by
    change 0 < (if scope.ttl ≤ 1 then 1 else scope.ttl).toNat
    split
    · decide
    · next h =>
      have hone := UInt64.lt_iff_toNat_lt.mp (UInt64.not_le.mp h)
      exact Nat.lt_trans (by decide) hone
  apply flat.does_ask (flat.put (scope.keyOf name) text _ hseconds)
  rfl

theorem does_remove (name : String) : flat.Does (Scope.remove · scope name) world
    (flat.held world (scope.keyOf name)).isSome
    (Function.update (flat.held world) (scope.keyOf name) none) := by
  have hupdate : (fun key => if key ∈ [scope.keyOf name] then none else flat.held world key) =
      Function.update (flat.held world) (scope.keyOf name) none := by
    funext key
    simp [Function.update_apply]
  have hcount : ([scope.keyOf name].dedup.countP fun key => (flat.held world key).isSome) =
      if (flat.held world (scope.keyOf name)).isSome then 1 else 0 := by
    rw [List.dedup_eq_self.mpr (List.nodup_singleton _), List.countP_singleton]
  rw [← hupdate]
  apply flat.does_ask (flat.remove [scope.keyOf name] (List.cons_ne_nil _ _))
  simp only [hcount]
  cases flat.held world (scope.keyOf name) <;> rfl

theorem does_contains (name : String) : flat.Does (Scope.contains · scope name) world
    (flat.held world (scope.keyOf name)).isSome (flat.held world) := by
  apply flat.does_ask (flat.contains (scope.keyOf name))
  cases flat.held world (scope.keyOf name) <;> rfl

theorem does_deleteAll {pieces : List (List String)} (h : ∀ keys ∈ pieces, keys ≠ []) :
    flat.Does (Scope.deleteAll · pieces) world ()
      fun key => if key ∈ pieces.flatten then none else flat.held world key := by
  induction pieces generalizing world with
  | nil => exact ⟨world, Finishes.of_forall fun _ => rfl, by simp⟩
  | cons keys pieces ih =>
    have hcount (n : Int64) : (Reply.int n).int64 = .ok n := rfl
    have hfirst := flat.does_ask (flat.remove keys (h keys List.mem_cons_self)) world (hcount _)
      .redisDelete
    obtain ⟨between, hfinishes, hbetween⟩ := hfirst.map fun _ => ()
    obtain ⟨after, hrest, hafter⟩ :=
      ih between fun others ho => h others (List.mem_cons_of_mem keys ho)
    refine ⟨after, hfinishes.bind hrest, ?_⟩
    rw [hafter, hbetween]
    funext key
    by_cases hkeys : key ∈ keys <;> simp [hkeys]

theorem does_scan : ∃ keys, flat.Does (Scope.scan · scope) world keys (flat.held world) ∧
    (∀ key, key ∈ keys ↔
      (flat.held world key).isSome ∧ Pattern.matchesKey (scope.keyOf "*") key) ∧
    (ListsOnce call → keys.Nodup) := by
  obtain ⟨pages, after, hscanned, hheld, hkeys⟩ := flat.scan (scope.keyOf "*") world
  refine ⟨pages.flatten, ⟨after, ⟨pages.length, fun patience hp => ?_⟩, hheld⟩, hkeys, ?_⟩
  · exact Scope.runOn_scanPages hscanned hp
  · intro once
    exact once _ _ _ _ hscanned

variable {scope}

/-- A handle with a prefix or a namespace drops every key that its pattern matches, and no other. -/
theorem does_clear (h : scope.isScoped = true) : flat.Does (Scope.clear · scope) world ()
    fun key => if Pattern.matchesKey (scope.keyOf "*") key then none
      else flat.held world key := by
  obtain ⟨keys, ⟨between, hscan, hbetween⟩, hkeys, -⟩ := flat.does_scan scope world
  have hpieces : ∀ piece ∈ chunks 500 keys, piece ≠ [] := fun _ hp => ne_nil_of_mem_chunks hp
  obtain ⟨after, hremove, hafter⟩ := flat.does_deleteAll between hpieces
  refine ⟨after, ?_, ?_⟩
  · simp only [Scope.clear_of_isScoped _ h]
    exact hscan.bind hremove
  · rw [hafter, hbetween, flatten_chunks]
    funext key
    by_cases hmatch : Pattern.matchesKey (scope.keyOf "*") key = true
    · cases hheld : flat.held world key <;> simp [hkeys, hmatch, hheld]
    · simp [hkeys, hmatch]

theorem does_size (h : scope.isScoped = true) : ∃ keys : List String,
    flat.Does (Scope.size · scope) world keys.length (flat.held world) ∧
      (∀ key, key ∈ keys ↔
        (flat.held world key).isSome ∧ Pattern.matchesKey (scope.keyOf "*") key) ∧
      (ListsOnce call → keys.Nodup) := by
  obtain ⟨keys, hscan, hkeys⟩ := flat.does_scan scope world
  refine ⟨keys, ?_, hkeys⟩
  simp only [Scope.size_of_isScoped _ h]
  exact hscan.map List.length

end Flat

/-! ## A server in memory -/

namespace TwoPages

/-- A server that keeps a table and sends the keys of a scan in two pages. The first page has to do
with the given number of keys, the second one with the others. -/
def call (first : Nat) : Answering (Table String String)
  | ["GET", key], t => (.ok ((t.find? key).elim .nil .bulk), t)
  | ["SETEX", key, _, text], t => (.ok (.status "OK"), t.set key text)
  | "DEL" :: keys, t =>
    (.ok (.int (.ofNat (keys.dedup.countP t.contains))), keys.foldl Table.erase t)
  | ["EXISTS", key], t => (.ok (.int (if t.contains key then 1 else 0)), t)
  | ["SCAN", "0", "MATCH", pattern, "COUNT", _], t =>
    (.ok (.ofPage 1 ((t.keys.take first).filter (Pattern.matchesKey pattern))), t)
  | ["SCAN", "1", "MATCH", pattern, "COUNT", _], t =>
    (.ok (.ofPage 0 ((t.keys.drop first).filter (Pattern.matchesKey pattern))), t)
  | _, t => (.ok (.failure "ERR unknown command"), t)

private theorem call_scanWords_zero (first : Nat) (pattern : String) (t : Table String String) :
    call first (scanWords pattern 0) t =
      (.ok (.ofPage 1 ((t.keys.take first).filter (Pattern.matchesKey pattern))), t) := rfl

private theorem call_scanWords_one (first : Nat) (pattern : String) (t : Table String String) :
    call first (scanWords pattern 1) t =
      (.ok (.ofPage 0 ((t.keys.drop first).filter (Pattern.matchesKey pattern))), t) := rfl

private theorem find?_foldl_erase (keys : List String) (t : Table String String) (key : String) :
    (keys.foldl Table.erase t).find? key = if key ∈ keys then none else t.find? key := by
  induction keys generalizing t with
  | nil => simp
  | cons other keys ih =>
    rw [List.foldl_cons, ih, Table.find?_erase]
    by_cases hkeys : key ∈ keys <;> by_cases hother : key = other <;> simp [hkeys, hother]

def pages (first : Nat) (pattern : String) (t : Table String String) : List (List String) :=
  [(t.keys.take first).filter (Pattern.matchesKey pattern),
    (t.keys.drop first).filter (Pattern.matchesKey pattern)]

private theorem flatten_pages (first : Nat) (pattern : String) (t : Table String String) :
    (pages first pattern t).flatten = t.keys.filter (Pattern.matchesKey pattern) := by
  rw [pages, List.flatten_cons, List.flatten_singleton, ← List.filter_append,
    List.take_append_drop]

private theorem scanned_iff {first : Nat} {pattern : String} {t after : Table String String}
    {sent : List (List String)} : Scanned (call first) pattern 0 t sent after ↔
      sent = pages first pattern t ∧ after = t := by
  constructor
  · intro h
    cases h with
    | last page =>
      rw [call_scanWords_zero] at page
      have hreply := Except.ok.inj (Prod.mk.inj page).1
      exact absurd (Reply.ofPage_inj.mp hreply).1 (by decide)
    | more page goes_on rest =>
      rw [call_scanWords_zero] at page
      obtain ⟨hreply, rfl⟩ := Prod.mk.inj page
      obtain ⟨rfl, rfl⟩ := Reply.ofPage_inj.mp (Except.ok.inj hreply)
      cases rest with
      | last page =>
        rw [call_scanWords_one] at page
        obtain ⟨hreply, rfl⟩ := Prod.mk.inj page
        obtain ⟨-, rfl⟩ := Reply.ofPage_inj.mp (Except.ok.inj hreply)
        exact ⟨rfl, rfl⟩
      | more page goes_on rest =>
        rw [call_scanWords_one] at page
        have hreply := Except.ok.inj (Prod.mk.inj page).1
        exact absurd (Reply.ofPage_inj.mp hreply).1.symm goes_on
  · rintro ⟨rfl, rfl⟩
    exact .more (call_scanWords_zero _ _ _) (by decide) (.last (call_scanWords_one _ _ _))

def flat (first : Nat) : Flat (call first) where
  held := Table.find?
  get key t := ⟨rfl, rfl⟩
  put key text seconds _ t := ⟨rfl, funext fun other =>
    (Table.find?_set t key other text).trans (Function.update_apply _ _ _ _).symm⟩
  remove keys _ t := ⟨rfl, funext (find?_foldl_erase keys t)⟩
  contains key t := ⟨rfl, rfl⟩
  scan pattern t := by
    refine ⟨_, t, scanned_iff.mpr ⟨rfl, rfl⟩, rfl, fun key => ?_⟩
    rw [flatten_pages, List.mem_filter, Table.mem_keys_iff, Table.contains]

theorem listsOnce (first : Nat) : ListsOnce (call first) := by
  intro pattern t sent after h
  obtain ⟨rfl, -⟩ := scanned_iff.mp h
  rw [flatten_pages]
  exact t.distinct.filter _

end TwoPages
end ResultCache.Redis
