import Mathlib.Data.FinEnum
import Mathlib.Data.Set.Finite.List
import ResultCache.Proofs.CanonicalBytes
import ResultCache.Proofs.LookupKeys
import ResultCache.Proofs.Publication
import ResultCache.Proofs.Requests
import ResultCache.Proofs.Resolution

/-!
# Named values, read back

A property with a dot is a path, of which only the first segment is looked up.
-/

namespace ResultCache

variable {σ ω : Type}

namespace Parameters

def names : Parameters → Dictionary Value
  | named values => values
  | _ => Dictionary.empty

private theorem insert_eq (params : Parameters) (name : String) (value : Value) :
    params.insert name value = named (params.names.insert name value) := by
  cases params <;> rfl

theorem resolve_named_names {params : Parameters} (h : ∀ value, params ≠ scalar value)
    (property : String) : (named params.names).resolve property = params.resolve property := by
  cases params with
  | none => rfl
  | scalar value => exact absurd rfl (h value)
  | named values => rfl

theorem resolve_insert_self {name : String} (h : '.' ∉ name.toList) (params : Parameters)
    (value : Value) : (params.insert name value).resolve name = .ok value := by
  rw [insert_eq]
  simp only [resolve, splitPath_of_not_mem h, Dictionary.find?_insert, if_true]

theorem resolve_insert_of_mem {name : String} (h : '.' ∈ name.toList) (params : Parameters)
    (value : Value) (property : String) :
    (params.insert name value).resolve property = (named params.names).resolve property := by
  rw [insert_eq]
  exact resolve_insert (head_ne_of_mem h property) value

end Parameters

namespace Statement

private theorem readings_of_lookupKey_eq {st : Statement σ} {p q : Parameters} {b c : RowBounds}
    {e f : Option String} {key : Key} (hp : st.lookupKey p b e = .ok key)
    (hq : st.lookupKey q c f = .ok key) : st.readings p = st.readings q := by
  obtain ⟨xs, hxs, hkey⟩ := inputs_of_lookupKey hp
  obtain ⟨ys, hys, hother⟩ := inputs_of_lookupKey hq
  have hlength : xs.length = ys.length := by
    have h := (congrArg List.length hxs).symm.trans (by rw [readings, List.length_map])
    have h' := (congrArg List.length hys).symm.trans (by rw [readings, List.length_map])
    simp only [List.length_map] at h h'
    exact h.trans h'.symm
  obtain ⟨-, -, -, -, hparts⟩ := invocation_inj.mp (Key.ofComponents_inj.mp (hkey ▸ hother))
  rw [hxs, hys, (List.append_inj hparts hlength).1]

theorem lookupKey_insert_ne {st : Statement σ} {m : ParameterMapping} (hm : m ∈ st.mappings)
    (hmode : m.mode ≠ .output) (hdot : '.' ∉ m.property.toList) {p q : Parameters} {v w : Value}
    (hne : v ≠ w) {b c : RowBounds} {e f : Option String} {key other : Key}
    (hkey : st.lookupKey (p.insert m.property v) b e = .ok key)
    (hother : st.lookupKey (q.insert m.property w) c f = .ok other) : key ≠ other := by
  rintro rfl
  have hreadings := (readings_eq_iff st _ _).mp (readings_of_lookupKey_eq hkey hother) m hm hmode
  rw [Parameters.resolve_insert_self hdot, Parameters.resolve_insert_self hdot] at hreadings
  exact hne (Except.ok.inj hreadings)

theorem lookupKey_insert_of_mem {name : String} (hdot : '.' ∈ name.toList) (st : Statement σ)
    (params : Parameters) (v : Value) (bounds : RowBounds) (environment : Option String) :
    st.lookupKey (params.insert name v) bounds environment =
      st.lookupKey (.named params.names) bounds environment := by
  refine lookupKey_congr ((readings_eq_iff st _ _).mpr fun m _ _ => ?_) rfl rfl bounds environment
  exact Parameters.resolve_insert_of_mem hdot params v m.property

end Statement

private theorem setTexts_eq_foldl {β : Type} (texts : Texts) (f : β → String)
    (g : β → Option String) (entries : List β) (name : String) :
    setTexts texts f g entries name =
      (entries.filter fun entry => f entry = name).foldl (fun _ entry => g entry) (texts name) := by
  induction entries generalizing texts with
  | nil => rfl
  | cons entry rest ih =>
    change setTexts (Function.update texts (f entry) (g entry)) f g rest name = _
    rw [ih]
    by_cases h : f entry = name
    · rw [List.filter_cons_of_pos (by simpa using h), List.foldl_cons, h, Function.update_self]
    · rw [List.filter_cons_of_neg (by simpa using h), Function.update_of_ne (Ne.symm h)]

private theorem Table.filter_setEntry {κ α : Type} [DecidableEq κ] {p : κ → Bool} {key : κ}
    (h : p key = false) (value : α) (entries : List (κ × α)) :
    (setEntry key value entries).filter (fun entry => p entry.1) =
      entries.filter fun entry => p entry.1 := by
  induction entries with
  | nil => simp [setEntry, h]
  | cons entry rest ih =>
    rw [setEntry]
    by_cases hk : entry.1 = key
    · rw [if_pos hk, List.filter_cons_of_neg (by simp [h]),
        List.filter_cons_of_neg (by simp [hk, h])]
    · rw [if_neg hk, List.filter_cons, List.filter_cons, ih]

private theorem Table.filter_keys_erase {κ α : Type} [DecidableEq κ] {p : κ → Bool} {key : κ}
    (h : p key = false) (t : Table κ α) : (t.erase key).keys.filter p = t.keys.filter p := by
  rw [keys, keys, List.filter_map, List.filter_map, erase, List.filter_filter]
  refine congrArg _ (List.filter_congr fun entry _ => ?_)
  by_cases hk : entry.1 = key <;> simp [hk, h]

namespace View

private theorem get_put_of_ne {ω : Type} (stores : Stores σ ω) (view : View σ) {key other : Key}
    (h : other ≠ key) (text : String) :
    (view.put key text).get stores other = view.get stores other := by
  rw [get, get]
  simp only [put, Table.contains_erase, Table.find?_set, h, decide_false, Bool.not_false,
    Bool.true_and, if_false]

private theorem published_put_of_ne (view : View σ) {key : Key} {name : String}
    (h : key.storageKey ≠ name) (text : String) (texts : Texts) :
    (view.put key text).published texts name = view.published texts name := by
  have hname : decide (key.storageKey = name) = false := decide_eq_false h
  have hwrites :
      (view.put key text).writes.entries.filter (fun entry => entry.1.storageKey = name) =
        view.writes.entries.filter fun entry => entry.1.storageKey = name :=
    Table.filter_setEntry (p := fun key => key.storageKey = name) hname text view.writes.entries
  have hremovals : (view.put key text).removals.keys.filter (fun key => key.storageKey = name) =
      view.removals.keys.filter fun key => key.storageKey = name :=
    Table.filter_keys_erase (p := fun key => key.storageKey = name) hname view.removals
  rw [published, published]
  simp only [setTexts_eq_foldl, hwrites, hremovals]
  rfl

end View

private theorem Transaction.get_congr {ω α : Type} {stores : Stores σ ω} {cache : NamedCache σ}
    {key : Key} {tx tx' : Transaction σ}
    (h : (tx.viewOf cache).get stores key = (tx'.viewOf cache).get stores key)
    (reader : Json.Reader α) (world : ω) :
    ((get stores reader cache key).runOn (tx, world)).1 =
        ((get stores reader cache key).runOn (tx', world)).1 ∧
      ((get stores reader cache key).runOn (tx, world)).2.2 =
        ((get stores reader cache key).runOn (tx', world)).2.2 := by
  rw [runOn_get, runOn_get, runOn_getText, runOn_getText, h]
  rcases ((tx'.viewOf cache).get stores key).runOn world with ⟨_ | _ | text, after⟩ <;>
    exact ⟨rfl, rfl⟩

private theorem Transaction.get_flushed_putText {ω : Type} (stores : Stores σ ω) {st : Statement σ}
    {cache : NamedCache σ} (hc : st.cache = some cache) {key other : Key} (h : other ≠ key)
    (text : String) (tx : Transaction σ) :
    (((tx.putText cache key text).flushed st).viewOf cache).get stores other =
      ((tx.flushed st).viewOf cache).get stores other := by
  rw [flushed, flushed, hc]
  dsimp only
  cases st.flushCache with
  | true =>
    rw [if_pos rfl, if_pos rfl, clear, clear, viewOf_stage_self, viewOf_stage_self, putText,
      viewOf_stage_self]
    rfl
  | false =>
    rw [if_neg Bool.false_ne_true, if_neg Bool.false_ne_true, putText, viewOf_stage_self]
    exact View.get_put_of_ne stores _ h text

/-- An entry under one key has no part in an invocation with another: while it is staged, the
invocation is answered as without it, and once it is committed, it is not under the name that the
other key has in the store, unless the two keys share that name. -/
structure Key.Unserved (σ : Type) (key other : Key) : Prop where
  staged : ∀ {ω : Type} (s : Session σ ω) (st : Statement σ) (params : Parameters)
    (bounds : RowBounds) (handler : Option (RowHandler ω)) (cache : NamedCache σ) (text : String)
    (tx : Transaction σ) (world : ω), st.cache = some cache →
    s.engine.lookupKey st params bounds world = .ok other →
    ((s.query st params bounds handler).runOn (tx.putText cache key text, world)).1 =
        ((s.query st params bounds handler).runOn (tx, world)).1 ∧
      ((s.query st params bounds handler).runOn (tx.putText cache key text, world)).2.2 =
        ((s.query st params bounds handler).runOn (tx, world)).2.2
  committed : key.storageKey ≠ other.storageKey → ∀ {ω : Type} [DecidableEq σ] {stores : Stores σ ω}
    (maps : MapFamily stores) (view : View σ) (text : String) (world : ω),
    maps.healthy world view.cache.store →
    maps.held (((view.put key text).publish stores).runOn world).2 view.cache.store
        other.storageKey =
      maps.held ((view.publish stores).runOn world).2 view.cache.store other.storageKey

private theorem Key.unserved_of_ne {key other : Key} (h : other ≠ key) :
    Key.Unserved σ key other where
  staged {ω} s st params bounds handler cache text tx world hc hk := by
    by_cases h' : ∃ own, Session.Cacheable st handler own
    · obtain ⟨own, cacheable⟩ := h'
      obtain rfl := Option.some.inj (hc.symm.trans cacheable.cached)
      rw [Session.query, Session.runOn_queryAsking_of_cacheable _ _ cacheable,
        Session.runOn_queryAsking_of_cacheable _ _ cacheable, Session.askKey,
        Action.runOn_ofFunction, hk]
      cases Session.refuseOutput st with
      | error e => exact ⟨rfl, rfl⟩
      | ok _ =>
        obtain ⟨hresult, hworld⟩ := Transaction.get_congr
          (Transaction.get_flushed_putText s.stores hc h text tx) Json.rows world
        dsimp only
        revert hresult hworld
        rcases (Transaction.get s.stores Json.rows cache other).runOn
          ((tx.putText cache key text).flushed st, world) with ⟨result, tx₁, after⟩
        rcases (Transaction.get s.stores Json.rows cache other).runOn (tx.flushed st, world)
          with ⟨result', tx₂, after'⟩
        rintro ⟨⟩ ⟨⟩
        rcases result with e | _ | rows
        · exact ⟨rfl, rfl⟩
        · dsimp only
          rcases (s.engine.query st params bounds none).runOn after with ⟨e | rows, last⟩
          · exact ⟨rfl, rfl⟩
          · exact ⟨rfl, rfl⟩
        · exact ⟨rfl, rfl⟩
    · have uncached : ∀ own, ¬ Session.Cacheable st handler own := not_exists.mp h'
      rw [Session.query, Session.runOn_queryAsking_of_direct _ _ uncached,
        Session.runOn_queryAsking_of_direct _ _ uncached]
      exact ⟨rfl, rfl⟩
  committed hname {ω} _ stores maps view text world healthy := by
    obtain ⟨after, hrun, hheld, -⟩ := maps.makes_publish view world healthy
    obtain ⟨after', hrun', hheld', -⟩ := maps.makes_publish (view.put key text) world healthy
    rw [View.cache_put] at hheld'
    rw [hrun, hrun', hheld, hheld', Function.update_self, Function.update_self]
    exact view.published_put_of_ne hname text (maps.held world view.cache.store)

/-- What comes of a value that is added under a name. A name without dots reads it, and so keys tell
it from other values; under a name with a dot nothing reads it. -/
structure Parameters.NamedValue (σ : Type) (params : Parameters) (name : String) (value : Value) :
    Prop where
  readBack : '.' ∉ name.toList → (params.insert name value).resolve name = .ok value
  /-- What is looked up for a property has no dot, so only the names that were there count. -/
  unread : '.' ∈ name.toList → ∀ property,
    (params.insert name value).resolve property = (named params.names).resolve property
  others : (∀ held, params ≠ scalar held) → ∀ property,
    (splitPath property).1 ≠ (splitPath name).1 →
    (params.insert name value).resolve property = params.resolve property
  /-- Invocations that differ in the value have different keys, in whatever windows and environments
  they run, and what is kept under the one key is not served under the other. -/
  apart : '.' ∉ name.toList → ∀ (st : Statement σ) (m : ParameterMapping), m ∈ st.mappings →
    m.mode ≠ .output → m.property = name → ∀ other, value ≠ other → ∀ b c e f key key',
    st.lookupKey (params.insert name value) b e = .ok key →
    st.lookupKey (params.insert name other) c f = .ok key' → key ≠ key' ∧ Key.Unserved σ key key'
  /-- The value has no part in any key. -/
  merged : '.' ∈ name.toList → ∀ (st : Statement σ) other bounds environment,
    st.lookupKey (params.insert name value) bounds environment =
      st.lookupKey (params.insert name other) bounds environment

/-- Whatever the parameters hold, a value under a name without dots is read back, and reaches the
keys of the statements that read the name. A value under a name with a dot is read by nothing, and
reaches no key. -/
theorem Parameters.namedValue_insert (params : Parameters) (name : String) (value : Value) :
    params.NamedValue σ name value where
  readBack hdot := resolve_insert_self hdot params value
  unread hdot property := resolve_insert_of_mem hdot params value property
  others hnames property hhead := by
    rw [← resolve_named_names hnames property]
    by_cases hdot : '.' ∈ name.toList
    · exact resolve_insert_of_mem hdot params value property
    · rw [splitPath_of_not_mem hdot] at hhead
      rw [insert_eq]
      exact resolve_insert hhead value
  apart hdot st m hm hmode hname other hne b c e f key key' hkey hkey' := by
    subst hname
    have hkeys := Statement.lookupKey_insert_ne hm hmode hdot hne hkey hkey'
    exact ⟨hkeys, Key.unserved_of_ne hkeys.symm⟩
  merged hdot st other bounds environment := by
    rw [Statement.lookupKey_insert_of_mem hdot, Statement.lookupKey_insert_of_mem hdot]

/-- The value of `id` is read back, and tells keys apart. The value of `user.id` is not read. -/
theorem Parameters.namedValue_insert_of_id :
    let find : Statement Unit :=
      { (Statement.ofCommand .select "users.find" "SELECT ?" : Statement Unit) with
        mappings := [⟨"id", .input⟩] }
    (Parameters.none.insert "id" (.int 5)).resolve "id" = .ok (.int 5) ∧
      (∃ key key',
        find.lookupKey (Parameters.none.insert "id" (.int 5)) .unbounded .none = .ok key ∧
        find.lookupKey (Parameters.none.insert "id" (.int 6)) .unbounded .none = .ok key' ∧
        key ≠ key' ∧ Key.Unserved Unit key key') ∧
      ∀ property, (Parameters.none.insert "user.id" (.int 5)).resolve property =
        (named Dictionary.empty).resolve property := by
  intro find
  have hid : Parameters.none.NamedValue Unit "id" (.int 5) :=
    Parameters.namedValue_insert .none "id" (.int 5)
  have hpath : Parameters.none.NamedValue Unit "user.id" (.int 5) :=
    Parameters.namedValue_insert .none "user.id" (.int 5)
  refine ⟨hid.readBack (by decide), ⟨_, _, rfl, rfl, ?_⟩, hpath.unread (by decide)⟩
  exact hid.apart (by decide) find ⟨"id", .input⟩ (List.mem_singleton_self _) (by decide) rfl
    (.int 6) (by decide) .unbounded .unbounded .none .none _ _ rfl rfl

/-- Of infinitely many keys two have one name in the stores: the names are digests. -/
theorem Key.exists_storageKey_eq {α : Type} [Infinite α] (keys : α → Key) :
    ∃ a b, a ≠ b ∧ (keys a).storageKey = (keys b).storageKey := by
  have : Finite { digest : Bytes | digest.length = 32 } :=
    (List.finite_length_eq UInt8 32).to_subtype
  let digest (a : α) : { digest : Bytes | digest.length = 32 } :=
    ⟨Sha256.digest (Bytes.ofText (keys a).render), Sha256.length_digest _⟩
  obtain ⟨a, b, hne, hdigest⟩ := Finite.exists_ne_map_eq_of_infinite digest
  exact ⟨a, b, hne, congrArg Bytes.toHex (congrArg Subtype.val hdigest)⟩

/-- Not every value is read back and reaches the keys: a value under `user.id` reads as null, and
two values under this name make one key. Not even under `id` do all pairs of different values have
different names in the stores. -/
theorem Parameters.exists_insert_unread :
    let find (property : String) : Statement Unit :=
      { (Statement.ofCommand .select "users.find" "SELECT ?" : Statement Unit) with
        mappings := [⟨property, .input⟩] }
    let keyOf (property : String) (value : Value) : Except Error Key :=
      (find property).lookupKey (Parameters.none.insert property value) .unbounded .none
    (¬ ∀ (params : Parameters) (name : String) (value : Value),
      (params.insert name value).resolve name = .ok value) ∧
    (¬ ∀ v w key key', v ≠ w → keyOf "user.id" v = .ok key → keyOf "user.id" w = .ok key' →
      key ≠ key') ∧
    ¬ ∀ v w key key', v ≠ w → keyOf "id" v = .ok key → keyOf "id" w = .ok key' →
      key.storageKey ≠ key'.storageKey := by
  intro find keyOf
  refine ⟨fun h => ?_, fun h => ?_, fun h => ?_⟩
  · have hnull : (Parameters.none.insert "user.id" (.int 5)).resolve "user.id" = .ok .null := rfl
    cases hnull.symm.trans (h .none "user.id" (.int 5))
  · exact h (.int 5) (.int 6) _ _ (by decide) rfl rfl rfl
  · have : Infinite Value := Infinite.of_injective
      (fun n : Nat => Value.array (List.replicate n .null)) fun m n hmn => by
        simpa using congrArg List.length (Value.array.inj hmn)
    have hkey (v : Value) :
        keyOf "id" v = .ok (Key.ofComponents ((find "id").invocation [v] .unbounded .none)) := by
      have hread : (Parameters.none.insert "id" v).resolve "id" = .ok v :=
        resolve_insert_self (by decide) .none v
      have hreadings : (find "id").readings (Parameters.none.insert "id" v) = [.ok v] :=
        congrArg (fun reading => [reading]) hread
      refine (Statement.lookupKey_eq _ _ _ _).trans ?_
      rw [hreadings]
      rfl
    obtain ⟨v, w, hne, hname⟩ := Key.exists_storageKey_eq fun v =>
      Key.ofComponents ((find "id").invocation [v] .unbounded .none)
    exact h v w _ _ hne (hkey v) (hkey w) hname

end ResultCache
