import ResultCache.Proofs.ReadIsolation
import ResultCache.Proofs.StoredTexts

/-! # Values that stores keep -/

namespace ResultCache

variable {ι σ ω α β : Type}

namespace Json

/-- Nothing in the value is a floating-point number, and every object has its fields in ascending
order of their names, which are distinct. -/
inductive Exact : Json → Prop
  | null : Exact null
  | bool (b : Bool) : Exact (bool b)
  | integer (n : JsonInteger) : Exact (integer n)
  | string (s : String) : Exact (string s)
  | array {items : List Json} (each : ∀ item ∈ items, Exact item) : Exact (array items)
  | object (fields : Dictionary Json) (each : ∀ field ∈ fields.entries, Exact field.2) :
    Exact (object fields.entries)

def nested : Nat → Json
  | 0 => null
  | n + 1 => array [nested n]

private theorem exact_nested (n : Nat) : (nested n).Exact := by
  induction n with
  | zero => exact .null
  | succ n ih => exact .array (List.forall_mem_singleton.mpr ih)

private theorem fits_nested (n m : Nat) : Fits n (nested m) ↔ m ≤ n := by
  induction m generalizing n with
  | zero => cases n <;> exact iff_of_true trivial (Nat.zero_le _)
  | succ m ih =>
    cases n with
    | zero => exact iff_of_false id (Nat.not_succ_le_zero m)
    | succ n => exact List.forall_mem_singleton.trans ((ih n).trans Nat.succ_le_succ_iff.symm)

private theorem Exact.faithful {v : Json} (h : v.Exact) : v.Faithful := by
  induction h with
  | null => exact .null
  | bool b => exact .bool b
  | integer n => exact .integer n
  | string s => exact .string s
  | array each ih => exact .array ih
  | object fields each ih => exact .object fields.ascending ih

private theorem exact_ofFields {fields : List (String × Json)}
    (each : ∀ field ∈ fields, field.2.Exact) :
    (ofFields fields).Exact := by
  refine .object (Dictionary.ofList fields) fun field hf => ?_
  exact each field (Dictionary.mem_ofList hf)

private theorem fits_ofFields {fields : List (String × Json)} {n : Nat}
    (each : ∀ field ∈ fields, Fits n field.2) : Fits (n + 1) (ofFields fields) :=
  fun field hf => each field (Dictionary.mem_ofList hf)

theorem eq_of_compact_eq {v w : Json} (hv : v.Exact) (hw : w.Exact) (fits : Fits maxDepth v)
    (h : w.compact = v.compact) : w = v := by
  have hread : decodeStored value w.compact = .ok v := h ▸ (decodeStored_value hv.faithful).1 fits
  by_cases hfits : Fits maxDepth w
  · exact Except.ok.inj (((decodeStored_value hw.faithful).1 hfits).symm.trans hread)
  · obtain ⟨fault, -, herror⟩ := (decodeStored_value hw.faithful).2 hfits
    cases herror.symm.trans hread

end Json

namespace Operation

/-- The operation has no part in an entry of a cache: it neither ends the transaction nor clears the
cache, and it writes and removes nothing under the key. -/
def Spares (id : String) (key : Key) (op : Operation σ α) : Prop :=
  op.ends = false ∧ op.clears id = false ∧ op.leaves id key = none

/-- The last of some operations with a part in an entry puts a value there. -/
def PutLast (ops : List (Operation σ α)) (cache : NamedCache σ) (key : Key) (payload : Payload) :
    Prop :=
  ∃ earlier later, ops = earlier ++ put cache key payload :: later ∧
    ∀ op ∈ later, op.Spares cache.id key

private theorem writes_viewOf (tx : Transaction σ) (cache : NamedCache σ) :
    (tx.viewOf cache).writes = (tx.views.find? cache.id).elim Table.empty View.writes := by
  rw [Transaction.viewOf]
  cases tx.views.find? cache.id <;> rfl

private theorem Spares.writes_after {op : Operation σ α} {cache : NamedCache σ} {key : Key}
    (h : op.Spares cache.id key) (tx : Transaction σ) :
    ((op.after tx).viewOf cache).writes.find? key = (tx.viewOf cache).writes.find? key := by
  obtain ⟨hends, hclears, hleaves⟩ := h
  -- A staged change counts for the cache under the same id alone.
  have staged : ∀ (other : NamedCache σ) (f : View σ → View σ),
      (cache.id = other.id →
        (f (tx.viewOf other)).writes.find? key = (tx.viewOf other).writes.find? key) →
      ((tx.stage other f).viewOf cache).writes.find? key = (tx.viewOf cache).writes.find? key := by
    intro other f hf
    rw [viewOf_stage]
    split
    · rename_i hid
      rw [hf hid, writes_viewOf, writes_viewOf, hid]
    · rfl
  cases op with
  | clear other => exact staged other _ fun hid => absurd hid.symm (of_decide_eq_false hclears)
  | put other k payload =>
    rw [after]
    cases hencode : payload.encode with
    | error e => rfl
    | ok text =>
      refine staged other _ fun hid => ?_
      have hk : key ≠ k := by
        rintro rfl
        simp [leaves, hid, hencode, Except.toOption] at hleaves
      rw [View.put, Table.find?_set, if_neg hk]
  | remove other k =>
    refine staged other _ fun hid => ?_
    have hk : key ≠ k := by
      rintro rfl
      simp [leaves, hid] at hleaves
    rw [View.remove, Table.find?_erase, if_neg hk]
  | get other k reader => exact staged other id fun _ => rfl
  | commit order => cases hends
  | rollback => cases hends

theorem writes_foldl_after {ops : List (Operation σ α)} {cache : NamedCache σ} {key : Key}
    (h : ∀ op ∈ ops, op.Spares cache.id key) (tx : Transaction σ) :
    ((ops.foldl after tx).viewOf cache).writes.find? key = (tx.viewOf cache).writes.find? key := by
  induction ops generalizing tx with
  | nil => rfl
  | cons op ops ih =>
    rw [List.foldl_cons, ih fun other ho => h other (List.mem_cons_of_mem op ho),
      (h op List.mem_cons_self).writes_after tx]

theorem PutLast.staged {ops : List (Operation σ α)} {cache : NamedCache σ} {key : Key}
    {payload : Payload} (h : PutLast ops cache key payload) {text : String}
    (encoded : payload.encode = .ok text) (tx : Transaction σ) :
    ((ops.foldl after tx).viewOf cache).writes.find? key = some text := by
  obtain ⟨earlier, later, rfl, spares⟩ := h
  rw [List.foldl_append, List.foldl_cons, writes_foldl_after spares, after, encoded]
  simp [Transaction.putText, View.put]

end Operation

section Read

variable [DecidableEq σ] {stores : Stores σ ω} (maps : MapFamily stores) {cache : NamedCache σ}
  {key : Key} {text : String} {world : ω} (healthy : maps.healthy world cache.store)
  (held : maps.held world cache.store key.storageKey = some text)
include maps healthy held

private theorem get_of_held (reader : Json.Reader β) :
    ((Transaction.get stores reader cache key).runOn (.first, world)).1 =
      (decodeStored reader text).map some := by
  have hfound := Transaction.getText_first_of_held maps healthy held
  rw [Transaction.runOn_get]
  rcases hrun : (Transaction.getText stores cache key).runOn (.first, world) with ⟨result, state⟩
  rw [hrun] at hfound
  obtain rfl : result = .ok (some text) := hfound
  rfl

private theorem read_of_held (reader : Json.Reader β) :
    ((stores.read cache.store reader key.storageKey).runOn world).1 =
      (decodeStored reader text).map some := by
  have hanswer := (maps.get cache.store key.storageKey).answer_eq healthy
  rw [held] at hanswer
  rw [Stores.read, Action.runOn_bind]
  rcases hrun : (stores.get cache.store key.storageKey).runOn world with ⟨result, after⟩
  rw [hrun] at hanswer
  obtain rfl : result = .ok (some text) := hanswer
  exact congrArg Prod.fst (Action.runOn_map some (Action.ofResult (decodeStored reader text)) after)

end Read

theorem System.read_after_commit [DecidableEq ι] [DecidableEq σ] {stores : Stores σ ω}
    (maps : MapFamily stores) {caches : Set (NamedCache σ)} {keys : Set Key}
    (sep : Separate caches keys) {script : List (ι × Operation σ α)}
    (within : ∀ turn ∈ script, turn.2.Within caches keys) {world : ω}
    (healthy : ∀ cache ∈ caches, maps.healthy world cache.store) {cache : NamedCache σ}
    (hc : cache ∈ caches) {key : Key} (hkey : key ∈ keys) {who : ι} {payload : Payload}
    (last : Operation.PutLast (ofOwner who script) cache key payload) {text : String}
    (encoded : payload.encode = .ok text) (order : CommitOrder σ) :
    let system := (start world).run stores script
    ∃ tx after, (Transaction.commitIn stores order).runOn
        (system.transactions who, system.world) = (.ok (), (tx, after)) ∧
      ∀ reader : Json.Reader β,
        ((Transaction.get stores reader cache key).runOn (.first, after)).1 =
          (decodeStored reader text).map some ∧
        ((stores.read cache.store reader key.storageKey).runOn after).1 =
          (decodeStored reader text).map some := by
  intro system
  have hsound : system.Sound maps caches keys := (sound_start healthy).run sep.oneStore within
  have hstaged : ((system.transactions who).viewOf cache).writes.find? key = some text := by
    rw [transactions_run]
    exact last.staged encoded _
  obtain ⟨after, hrun, hheld, hafter⟩ := Transaction.held_after_commitIn maps (hsound.within who)
    sep order system.world hsound.healthy hc hkey hstaged
  exact ⟨_, after, hrun, fun reader =>
    ⟨get_of_held maps hafter hheld reader, read_of_held maps hafter hheld reader⟩⟩

namespace Json

/-- A value survives its stored text. -/
structure ReadBack (v : Json) : Prop where
  /-- The value's own text is read as the value. -/
  decoded : ((Payload.json v).encode >>= decodeStored value) = .ok v
  /-- It is the text of no other value. -/
  injective : ∀ w : Json, w.Exact → (Payload.json w).encode = (Payload.json v).encode → w = v
  /-- Where ids and stores belong together and keys have names of their own, an owner among others
  puts the value under a key of stores that do not fail, last of all that it does there. Once it has
  committed, in whichever order, the value is what a new transaction reads under the key, and what
  the store keeps under the key's name. -/
  published : ∀ {ι σ ω α : Type} [DecidableEq ι] [DecidableEq σ] {stores : Stores σ ω}
    (maps : MapFamily stores) {caches : Set (NamedCache σ)} {keys : Set Key},
    Separate caches keys → ∀ {script : List (ι × Operation σ α)},
    (∀ turn ∈ script, turn.2.Within caches keys) → ∀ {world : ω},
    (∀ cache ∈ caches, maps.healthy world cache.store) → ∀ {cache : NamedCache σ},
    cache ∈ caches → ∀ {key : Key}, key ∈ keys → ∀ {who : ι},
    Operation.PutLast (System.ofOwner who script) cache key (.json v) → ∀ order : CommitOrder σ,
    let system := (System.start world).run stores script
    ∃ tx after, (Transaction.commitIn stores order).runOn
        (system.transactions who, system.world) = (.ok (), (tx, after)) ∧
      ((Transaction.get stores value cache key).runOn (.first, after)).1 = .ok (some v) ∧
      ((stores.read cache.store value key.storageKey).runOn after).1 = .ok (some v)

/-- A value of nulls, booleans, integers of 64 bits, texts, arrays and objects survives its stored
text exactly if no more than 127 containers stand inside one another. -/
theorem readBack_iff_fits {v : Json} (exact : v.Exact) : v.ReadBack ↔ Fits 127 v := by
  have hstored := decodeStored_value exact.faithful
  constructor
  · intro h
    by_contra hfits
    obtain ⟨fault, -, herror⟩ := hstored.2 hfits
    cases herror.symm.trans h.decoded
  · intro fits
    have hread : decodeStored value v.compact = .ok v := hstored.1 fits
    refine ⟨hread, fun w hw h => eq_of_compact_eq exact hw fits (Except.ok.inj h), ?_⟩
    intro ι σ ω α _ _ stores maps caches keys sep script within world healthy cache hc key hkey who
      last order
    obtain ⟨tx, after, hrun, hanswers⟩ := System.read_after_commit maps sep within healthy hc hkey
      last (show (Payload.json v).encode = .ok v.compact from rfl) order
    have hanswer := hanswers value
    rw [hread] at hanswer
    exact ⟨tx, after, hrun, hanswer⟩

/-- The extremes of both kinds of integers, an empty text, an empty array and characters that are
escaped or not in ASCII. Of arrays inside one another 127 are the most that are read back. -/
theorem readBack_iff_fits_of_extremes :
    let numbers : Json := array [integer ⟨-9223372036854775808, by decide⟩, array [],
      integer ⟨18446744073709551615, by decide⟩]
    let words : Json := ofFields [("b", string ""), ("a", bool false)]
    let extremes : Json := ofFields [("\"\\\n\x01é", numbers), ("", words)]
    let users : NamedCache Nat := ⟨"users", 0⟩
    let key := Key.ofComponents [.text "find"]
    let script : List (Bool × Operation Nat Bool) :=
      [(true, .clear users), (true, .put users key (.json .null)), (true, .remove users key),
        (true, .put users key (.json extremes)), (true, .get users key boolean),
        (false, .remove users key), (false, .commit .staged)]
    let system := (System.start [.map (.new .empty)]).run Shelf.stores script
    extremes.ReadBack ∧ (∃ tx after, (Transaction.commitIn Shelf.stores .staged).runOn
        (system.transactions true, system.world) = (.ok (), (tx, after)) ∧
      ((Transaction.get Shelf.stores value users key).runOn (.first, after)).1 =
        .ok (some extremes) ∧
      ((Shelf.stores.read 0 value key.storageKey).runOn after).1 = .ok (some extremes)) ∧
    (nested 127).ReadBack ∧ ¬ (nested 128).ReadBack := by
  intro numbers words extremes users key script system
  have exact : extremes.Exact := by
    have hnumbers : numbers.Exact := .array (by simp [Exact.integer, Exact.array])
    have hwords : words.Exact := exact_ofFields (by simp [Exact.string, Exact.bool])
    exact exact_ofFields (by simp [hnumbers, hwords])
  have fits : Fits 127 extremes := by
    have hnumbers : Fits 126 numbers := by simp [numbers, Fits]
    have hwords : Fits 126 words := fits_ofFields (by simp [Fits])
    exact fits_ofFields (by simp [hnumbers, hwords])
  have hread : extremes.ReadBack := (readBack_iff_fits exact).mpr fits
  have sep : Separate {users} {key} :=
    ⟨oneStore_singleton users, oneId_singleton users, Set.injOn_singleton _ _⟩
  have within : ∀ turn ∈ script, turn.2.Within {users} {key} := by
    simp [script, Operation.Within]
  have healthy : ∀ cache ∈ ({users} : Set (NamedCache Nat)),
      Shelf.maps.healthy [.map (.new .empty)] cache.store := by
    rintro cache rfl
    exact ⟨_, rfl, fun _ => rfl⟩
  have last : Operation.PutLast (System.ofOwner true script) users key (.json extremes) :=
    ⟨[.clear users, .put users key (.json .null), .remove users key],
      [.get users key boolean], rfl, List.forall_mem_singleton.mpr ⟨rfl, rfl, rfl⟩⟩
  refine ⟨hread, hread.published Shelf.maps sep within healthy rfl rfl last .staged, ?_, ?_⟩
  · exact (readBack_iff_fits (exact_nested 127)).mpr ((fits_nested 127 127).mpr le_rfl)
  · rw [readBack_iff_fits (exact_nested 128), fits_nested]
    decide

end Json
end ResultCache
