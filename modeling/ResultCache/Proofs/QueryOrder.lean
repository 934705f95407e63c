import ResultCache.Proofs.Databases
import ResultCache.Proofs.QueryCourses

/-! # What a query asks for and stages -/

namespace ResultCache

variable {σ ω : Type}

private theorem View.mem_inquiries {view : View σ} {key : Key} {inquiry : Inquiry σ} :
    inquiry ∈ view.inquiries key ↔
      (view.cleared = false ∧ view.removals.contains key = false ∧ view.writes.find? key = none) ∧
        inquiry = .store view.cache.store (.get key.storageKey) := by
  rw [inquiries, List.mem_map]
  constructor
  · intro h
    obtain ⟨call, hm, hcall⟩ := h
    obtain ⟨unstaged, rfl⟩ := mem_reads.mp hm
    exact ⟨unstaged, hcall.symm⟩
  · intro h
    obtain ⟨unstaged, hinquiry⟩ := h
    exact ⟨_, mem_reads.mpr ⟨unstaged, rfl⟩, hinquiry.symm⟩

private theorem View.length_inquiries_le (view : View σ) (key : Key) :
    (view.inquiries key).length ≤ 1 := by
  rw [inquiries, List.length_map]
  exact view.length_reads_le key

private theorem Transaction.find?_stage (tx : Transaction σ) (cache : NamedCache σ)
    (change : View σ → View σ) (ident : String) :
    (tx.stage cache change).views.find? ident =
      if ident = cache.id then some (change (tx.viewOf cache)) else tx.views.find? ident :=
  Table.find?_set tx.views cache.id ident _

private theorem Transaction.viewOf_flushed {st : Statement σ} {tx : Transaction σ}
    {cache : NamedCache σ} (hc : st.cache = some cache) (hf : st.flushCache = true) :
    (tx.flushed st).viewOf cache = (tx.viewOf cache).clear := by
  rw [flushed, hc]
  dsimp only
  rw [if_pos hf]
  exact viewOf_stage_self tx cache View.clear

/-- That a view gains a write and loses a removal of the key, and is the same in all else. -/
structure View.Gains (view : View σ) (key : Key) (text : String) (after : View σ) : Prop where
  cache : after.cache = view.cache
  cleared : after.cleared = view.cleared
  writes : ∀ other,
    after.writes.find? other = if other = key then some text else view.writes.find? other
  removals : ∀ other,
    after.removals.contains other = (!decide (other = key) && view.removals.contains other)

private theorem View.gains_put (view : View σ) (key : Key) (text : String) :
    view.Gains key text (view.put key text) :=
  ⟨rfl, rfl, fun other => Table.find?_set view.writes key other text,
    fun other => Table.contains_erase view.removals key other⟩

/-- A procedure that writes to its parameters. -/
def Statement.WritesBack (st : Statement σ) : Prop :=
  st.type = .callable ∧ ∃ mapping ∈ st.mappings, mapping.mode ≠ .input

namespace Session

private theorem refuseOutput_eq_ok_iff {st : Statement σ} :
    refuseOutput st = .ok () ↔ ¬ st.WritesBack := by
  have houtput : st.hasOutput = true ↔ ∃ mapping ∈ st.mappings, mapping.mode ≠ .input := by
    simp only [Statement.hasOutput, List.any_eq_true, decide_eq_true_eq]
  rw [refuseOutput, Statement.WritesBack, ← houtput]
  split
  · next h => exact ⟨nofun, fun hn => absurd h hn⟩
  · next h => exact ⟨fun _ => h, fun _ => rfl⟩

section Courses

variable (s : Session σ ω) (st : Statement σ) (params : Parameters) (bounds : RowBounds)
  (handler : Option (RowHandler ω)) (tx : Transaction σ) (world : ω)

/-- Whether a query is answered without the engine: it may be answered from a cache, and is a
procedure that writes to its parameters, or has no key, or the cache cannot be read, or it holds the
rows. -/
def AnswersAlone : Prop :=
  ∃ cache, Cacheable st handler cache ∧
    (st.WritesBack ∨ (∃ e, s.engine.lookupKey st params bounds world = .error e) ∨
      ∃ key, s.engine.lookupKey st params bounds world = .ok key ∧
        ((∃ e, ((Transaction.get s.stores Json.rows cache key).runOn
            (tx.flushed st, world)).1 = .error e) ∨
          ∃ rows, ((Transaction.get s.stores Json.rows cache key).runOn
            (tx.flushed st, world)).1 = .ok (some rows)))

/-- Whether a query asks for something in order to be answered from its cache: it may be, and is no
procedure that writes to its parameters, and asks for its key, or asks the shared store for the text
under that key, of which nothing is staged. -/
def LooksUp (inquiry : Inquiry σ) : Prop :=
  ∃ cache, Cacheable st handler cache ∧ ¬ st.WritesBack ∧
    (inquiry = .key st params bounds ∨
      ∃ key, s.engine.lookupKey st params bounds world = .ok key ∧
        inquiry ∈ ((tx.flushed st).viewOf cache).inquiries key)

/-- What holds of a query that asks for the given things, gives the given result and leaves the
given transaction. -/
structure Orderly (asked : List (Inquiry σ)) (result : Except Error (List Row))
    (after : Transaction σ) : Prop where
  /-- A flush comes before all else and stays, whatever becomes of the query: of what was staged
  nothing is left, and the shared store is not read. -/
  flush : ∀ cache, st.cache = some cache → st.flushCache = true →
    (∃ writes, after.viewOf cache = { (tx.viewOf cache).clear with writes }) ∧
      ∀ store call, .store store call ∉ asked
  /-- The query asks at most once for the key, then at most once for a stored text, then at most
  once for the rows, and for nothing else. -/
  inOrder : ∃ reads : List (Inquiry σ), reads.length ≤ 1 ∧
    (∀ inquiry ∈ reads, ∃ store name, inquiry = .store store (.get name)) ∧
    asked.Sublist (.key st params bounds :: reads ++ [.rows st params bounds handler.isSome])
  /-- The engine is not asked for rows if and only if the session can do without. -/
  unasked : (∀ inquiry ∈ asked, inquiry.asksRows = false) ↔
    s.AnswersAlone st params bounds handler tx world
  /-- All else is asked for only to be answered from the cache. -/
  guarded : ∀ inquiry ∈ asked, inquiry.asksRows = false →
    s.LooksUp st params bounds handler tx world inquiry
  /-- Unless the engine has answered after a miss, nothing is staged but the flush. At most there is
  a new view, with nothing in it. -/
  kept : (∀ cache key rows, Missed s st params bounds handler tx world cache key →
      result ≠ .ok rows) →
    ∀ ident, after.views.find? ident = (tx.flushed st).views.find? ident ∨
      (tx.flushed st).views.find? ident = none ∧
        ∃ cache, st.cache = some cache ∧ cache.id = ident ∧
          after.views.find? ident = some (.fresh cache)
  /-- If the engine has answered after a miss, the view of the cache gains the write of the rows,
  and no other view changes. -/
  gained : ∀ cache key rows, Missed s st params bounds handler tx world cache key →
    result = .ok rows → ∃ text, (Payload.ofRows rows).encode = .ok text ∧
      ((tx.flushed st).viewOf cache).Gains key text (after.viewOf cache) ∧
      ∀ ident, ident ≠ cache.id →
        after.views.find? ident = (tx.flushed st).views.find? ident
  /-- The transaction goes on. -/
  generation : after.generation = tx.generation

variable {s st params bounds handler tx world}

private theorem Keyed.unique {cache cache' : NamedCache σ} {key key' : Key}
    (h : Keyed s st params bounds handler world cache key)
    (h' : Keyed s st params bounds handler world cache' key') : cache = cache' ∧ key = key' :=
  ⟨Option.some.inj (h.cached.symm.trans h'.cached), Except.ok.inj (h.keyed.symm.trans h'.keyed)⟩

private theorem Keyed.looksUp {cache : NamedCache σ} {key : Key}
    (keyed : Keyed s st params bounds handler world cache key) :
    ∀ inquiry ∈ .key st params bounds :: ((tx.flushed st).viewOf cache).inquiries key,
      s.LooksUp st params bounds handler tx world inquiry := by
  intro inquiry hm
  refine ⟨cache, keyed.toCacheable, refuseOutput_eq_ok_iff.mp keyed.allowed, ?_⟩
  rcases List.mem_cons.mp hm with hkey | hread
  · exact .inl hkey
  · exact .inr ⟨key, keyed.keyed, hread⟩

private theorem Missed.not_answersAlone {cache : NamedCache σ} {key : Key}
    (missed : Missed s st params bounds handler tx world cache key) :
    ¬ s.AnswersAlone st params bounds handler tx world := by
  rintro ⟨other, cacheable, hback | ⟨e, unkeyed⟩ | ⟨otherKey, hkey, hread⟩⟩
  · exact refuseOutput_eq_ok_iff.mp missed.allowed hback
  · cases missed.keyed.symm.trans unkeyed
  · obtain rfl := Option.some.inj (missed.cached.symm.trans cacheable.cached)
    obtain rfl := Except.ok.inj (missed.keyed.symm.trans hkey)
    rcases hread with ⟨e, hread⟩ | ⟨rows, hread⟩
    · cases missed.missed.symm.trans hread
    · cases missed.missed.symm.trans hread

namespace Course

variable {asked : List (Inquiry σ)}
  {result : Except Error (List Row)} {after : Transaction σ} {world' : ω}
  (course : Course s st params bounds handler tx world asked result (after, world'))
include course

/-- What is left is the flushed transaction, or that with the view of the cache, or that with a
write after a miss. -/
theorem leaves : after = tx.flushed st ∨
    (∃ cache, st.cache = some cache ∧ after = (tx.flushed st).stage cache id) ∨
    ∃ cache key rows, Missed s st params bounds handler tx world cache key ∧ result = .ok rows ∧
      after = ((tx.flushed st).stage cache id).putText cache key (Json.ofRows rows).compact := by
  cases course with
  | direct | refused | keyless => exact .inl rfl
  | unread keyed | hit keyed | failed keyed => exact .inr (.inl ⟨_, keyed.cached, rfl⟩)
  | answered keyed read => exact .inr (.inr ⟨_, _, _, ⟨keyed, congrArg Prod.fst read⟩, rfl, rfl⟩)

theorem inOrder : ∃ reads : List (Inquiry σ), reads.length ≤ 1 ∧
    (∀ inquiry ∈ reads, ∃ store name, inquiry = .store store (.get name)) ∧
    asked.Sublist (.key st params bounds :: reads ++ [.rows st params bounds handler.isSome]) := by
  have reading (cache : NamedCache σ) (key : Key) :
      ∀ inquiry ∈ ((tx.flushed st).viewOf cache).inquiries key,
        ∃ store name, inquiry = .store store (.get name) :=
    fun _ hm => ⟨_, _, (View.mem_inquiries.mp hm).2⟩
  cases course with
  | direct => exact ⟨[], Nat.zero_le 1, List.forall_mem_nil _, List.sublist_cons_self _ _⟩
  | refused => exact ⟨[], Nat.zero_le 1, List.forall_mem_nil _, List.nil_sublist _⟩
  | keyless =>
    exact ⟨[], Nat.zero_le 1, List.forall_mem_nil _, List.sublist_append_left [_] _⟩
  | unread | hit =>
    exact ⟨_, View.length_inquiries_le _ _, reading _ _, List.sublist_append_left _ _⟩
  | failed keyed | answered keyed =>
    obtain rfl := keyed.unstreamed
    exact ⟨_, View.length_inquiries_le _ _, reading _ _, List.Sublist.refl _⟩

theorem guarded : ∀ inquiry ∈ asked, inquiry.asksRows = false →
    s.LooksUp st params bounds handler tx world inquiry := by
  intro inquiry hm hrows
  cases course with
  | direct =>
    rw [List.mem_singleton.mp hm] at hrows
    cases hrows
  | refused => cases hm
  | keyless cacheable allowed =>
    exact ⟨_, cacheable, refuseOutput_eq_ok_iff.mp allowed, .inl (List.mem_singleton.mp hm)⟩
  | unread keyed | hit keyed => exact keyed.looksUp inquiry hm
  | failed keyed | answered keyed =>
    rcases List.mem_append.mp hm with hm | hm
    · exact keyed.looksUp inquiry hm
    · rw [List.mem_singleton.mp hm] at hrows
      cases hrows

private theorem unread_of_flush (hf : st.flushCache = true) (store : σ) (call : StoreRequest) :
    .store store call ∉ asked := by
  intro hm
  obtain ⟨other, cacheable, -, hkey | ⟨key, -, hread⟩⟩ := course.guarded _ hm rfl
  · cases hkey
  · have hcleared := (View.mem_inquiries.mp hread).1.1
    rw [Transaction.viewOf_flushed cacheable.cached hf] at hcleared
    cases hcleared

private theorem viewOf_of_flush {cache : NamedCache σ} (hc : st.cache = some cache)
    (hf : st.flushCache = true) :
    ∃ writes, after.viewOf cache = { (tx.viewOf cache).clear with writes } := by
  have hflushed : (tx.flushed st).viewOf cache = (tx.viewOf cache).clear :=
    Transaction.viewOf_flushed hc hf
  rcases course.leaves with rfl | ⟨other, ho, rfl⟩ | ⟨other, key, rows, missed, -, rfl⟩
  · exact ⟨_, hflushed⟩
  · obtain rfl := Option.some.inj (hc.symm.trans ho)
    exact ⟨_, (Transaction.viewOf_stage_self _ _ _).trans hflushed⟩
  · obtain rfl := Option.some.inj (hc.symm.trans missed.cached)
    rw [Transaction.putText, Transaction.viewOf_stage_self, Transaction.viewOf_stage_self, hflushed]
    exact ⟨_, rfl⟩

theorem unasked : (∀ inquiry ∈ asked, inquiry.asksRows = false) ↔
    s.AnswersAlone st params bounds handler tx world := by
  have quiet (cache : NamedCache σ) (key : Key) :
      ∀ inquiry ∈ .key st params bounds :: ((tx.flushed st).viewOf cache).inquiries key,
        inquiry.asksRows = false := by
    intro inquiry hm
    rcases List.mem_cons.mp hm with rfl | hread
    · rfl
    · rw [(View.mem_inquiries.mp hread).2]
      rfl
  cases course with
  | direct uncached =>
    refine iff_of_false (fun h => ?_) fun ⟨cache, cacheable, _⟩ => uncached cache cacheable
    cases h _ (List.mem_singleton_self _)
  | refused cacheable refused =>
    have hback : st.WritesBack := by
      by_contra h
      rw [refuseOutput_eq_ok_iff.mpr h] at refused
      cases refused
    exact iff_of_true (List.forall_mem_nil _) ⟨_, cacheable, .inl hback⟩
  | keyless cacheable _ unkeyed =>
    exact iff_of_true (List.forall_mem_singleton.mpr rfl)
      ⟨_, cacheable, .inr (.inl ⟨_, unkeyed⟩)⟩
  | unread keyed read =>
    exact iff_of_true (quiet _ _) ⟨_, keyed.toCacheable,
      .inr (.inr ⟨_, keyed.keyed, .inl ⟨_, congrArg Prod.fst read⟩⟩)⟩
  | hit keyed read =>
    exact iff_of_true (quiet _ _) ⟨_, keyed.toCacheable,
      .inr (.inr ⟨_, keyed.keyed, .inr ⟨_, congrArg Prod.fst read⟩⟩)⟩
  | failed keyed read | answered keyed read =>
    refine iff_of_false (fun h => ?_) (Missed.not_answersAlone ⟨keyed, congrArg Prod.fst read⟩)
    cases h _ (List.mem_append_right _ (List.mem_singleton_self _))

theorem kept (unanswered : ∀ cache key rows,
      Missed s st params bounds handler tx world cache key → result ≠ .ok rows) (ident : String) :
    after.views.find? ident = (tx.flushed st).views.find? ident ∨
      (tx.flushed st).views.find? ident = none ∧
        ∃ cache, st.cache = some cache ∧ cache.id = ident ∧
          after.views.find? ident = some (.fresh cache) := by
  rcases course.leaves with rfl | ⟨cache, hc, rfl⟩ | ⟨cache, key, rows, missed, hresult, -⟩
  · exact .inl rfl
  · rw [Transaction.find?_stage]
    by_cases hid : ident = cache.id
    · rw [if_pos hid, hid, Transaction.viewOf]
      cases (tx.flushed st).views.find? cache.id with
      | none => exact .inr ⟨rfl, cache, hc, rfl, rfl⟩
      | some view => exact .inl rfl
    · exact .inl (if_neg hid)
  · exact absurd hresult (unanswered cache key rows missed)

private theorem of_missed {cache : NamedCache σ} {key : Key} {rows : List Row}
    (missed : Missed s st params bounds handler tx world cache key) (hresult : result = .ok rows) :
    after = ((tx.flushed st).stage cache id).putText cache key (Json.ofRows rows).compact := by
  cases course with
  | direct uncached => exact absurd missed.toCacheable (uncached cache)
  | refused _ refused => cases missed.allowed.symm.trans refused
  | keyless _ _ unkeyed => cases missed.keyed.symm.trans unkeyed
  | unread keyed read =>
    obtain ⟨rfl, rfl⟩ := missed.toKeyed.unique keyed
    cases missed.missed.symm.trans (congrArg Prod.fst read)
  | hit keyed read =>
    obtain ⟨rfl, rfl⟩ := missed.toKeyed.unique keyed
    cases missed.missed.symm.trans (congrArg Prod.fst read)
  | failed => cases hresult
  | answered keyed =>
    obtain ⟨rfl, rfl⟩ := missed.toKeyed.unique keyed
    obtain rfl := Except.ok.inj hresult
    rfl

theorem gained {cache : NamedCache σ} {key : Key} {rows : List Row}
    (missed : Missed s st params bounds handler tx world cache key) (hresult : result = .ok rows) :
    ∃ text, (Payload.ofRows rows).encode = .ok text ∧
      ((tx.flushed st).viewOf cache).Gains key text (after.viewOf cache) ∧
      ∀ ident, ident ≠ cache.id →
        after.views.find? ident = (tx.flushed st).views.find? ident := by
  obtain rfl := course.of_missed missed hresult
  refine ⟨_, rfl, ?_, fun ident hid => ?_⟩
  · rw [Transaction.putText, Transaction.viewOf_stage_self, Transaction.viewOf_stage_self]
    exact View.gains_put _ _ _
  · rw [Transaction.putText, Transaction.find?_stage, if_neg hid, Transaction.find?_stage,
      if_neg hid]

private theorem generation : after.generation = tx.generation := by
  have hflushed : (tx.flushed st).generation = tx.generation := by
    unfold Transaction.flushed
    cases st.cache with
    | none => rfl
    | some cache => cases st.flushCache <;> rfl
  rcases course.leaves with rfl | ⟨cache, -, rfl⟩ | ⟨cache, key, rows, -, -, rfl⟩
  · exact hflushed
  · exact hflushed
  · exact hflushed

theorem orderly : Orderly s st params bounds handler tx world asked result after where
  flush _ hc hf := ⟨course.viewOf_of_flush hc hf, course.unread_of_flush hf⟩
  inOrder := course.inOrder
  unasked := course.unasked
  guarded := course.guarded
  kept := course.kept
  gained _ _ _ missed hresult := course.gained missed hresult
  generation := course.generation

end Course

/-- Whatever the engine and the stores do, a query goes one of its courses, asks for the key, a
stored text and the rows in this order and only where it has to, and stages nothing but the flush
and what the engine has answered after a miss. -/
theorem query_orderly (handler : Option (RowHandler ω)) (log : List (Inquiry σ)) :
    ∃ asked result after world',
      (s.query st params bounds handler).runOn (tx, world) = (result, (after, world')) ∧
      (s.inquiring st params bounds handler).runOn (tx, (world, log)) =
        (result, (after, (world', log ++ asked))) ∧
      Course s st params bounds handler tx world asked result (after, world') ∧
      Orderly s st params bounds handler tx world asked result after := by
  obtain ⟨asked, result, after, world', hquery, hinquiring, course⟩ :=
    goesACourse s st params bounds handler tx world log
  exact ⟨asked, result, after, world', hquery, hinquiring, course, course.orderly⟩

end Courses

/-- A procedure that writes to its parameters is refused once its flush is staged. -/
example :
    let users : NamedCache Nat := ⟨"users", 0⟩
    let load : Statement Nat :=
      { (Statement.ofCommand .select "load" "call load(?)" : Statement Nat) with
        type := .callable, cache := some users, flushCache := true, mappings := [⟨"id", .output⟩] }
    let s : Session Nat (Snapshot Bool Nat × Shelf) := ⟨switch.beside, Shelf.stores.beside⟩
    let outcome := (s.inquiring load .none .unbounded none).runOn
      (.first, ((⟨false, false, 0⟩, [.map (.new .empty)]), []))
    outcome.1 = .error (.configuration (.cachedOutput "load")) ∧
      (outcome.2.1.viewOf users).cleared = true ∧ outcome.2.2.2 = [] :=
  ⟨rfl, rfl, rfl⟩

end Session
end ResultCache
