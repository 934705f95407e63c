import Mathlib.Data.Set.Function
import ResultCache.Proofs.Maps
import ResultCache.Transaction

/-!
# What publishing staged changes comes to

Of what is staged, only the last change of a key counts, in whichever order the calls are made.
-/

namespace ResultCache

variable {σ ω α β : Type}

/-! ## Texts set one after the other -/

/-- Sets or drops the texts under the names of some entries, one after the other. -/
def setTexts (texts : Texts) (f : β → String) (g : β → Option String)
    (entries : List β) : Texts :=
  entries.foldl (fun texts entry => Function.update texts (f entry) (g entry)) texts

private theorem setTexts_of_ne (texts : Texts) {f : β → String} {g : β → Option String}
    {entries : List β} {other : String} (h : ∀ entry ∈ entries, f entry ≠ other) :
    setTexts texts f g entries other = texts other := by
  induction entries generalizing texts with
  | nil => rfl
  | cons entry rest ih =>
    have hne : other ≠ f entry := fun he => h entry (by simp) he.symm
    have hrest := ih (Function.update texts (f entry) (g entry))
      fun e he => h e (List.mem_cons_of_mem _ he)
    rw [Function.update_of_ne hne] at hrest
    exact hrest

private theorem setTexts_of_mem (texts : Texts) {f : β → String} {g : β → Option String}
    {entries : List β} {entry : β} (hm : entry ∈ entries)
    (h : ∀ other ∈ entries, f other = f entry → g other = g entry) :
    setTexts texts f g entries (f entry) = g entry := by
  induction entries generalizing texts entry with
  | nil => cases hm
  | cons first rest ih =>
    change setTexts (Function.update texts (f first) (g first)) f g rest _ = _
    by_cases hs : ∃ other ∈ rest, f other = f entry
    · obtain ⟨other, ho, hn⟩ := hs
      have hsame := h other (List.mem_cons_of_mem _ ho) hn
      rw [← hn, ← hsame]
      refine ih _ ho fun e he hne => ?_
      rw [hsame, h e (List.mem_cons_of_mem _ he) (hne.trans hn)]
    · have hfirst : entry = first := by
        rcases List.mem_cons.mp hm with he | he
        · exact he
        · exact absurd ⟨entry, he, rfl⟩ hs
      rw [setTexts_of_ne _ fun e he hn => hs ⟨e, he, hn⟩, hfirst, Function.update_self]

private theorem setTexts_source {texts : Texts} {f : β → String} {g : β → Option String}
    {entries : List β} {name text : String} (h : setTexts texts f g entries name = some text) :
    (∃ entry ∈ entries, f entry = name ∧ g entry = some text) ∨
      (∀ entry ∈ entries, f entry ≠ name) ∧ texts name = some text := by
  induction entries generalizing texts with
  | nil => exact .inr ⟨nofun, h⟩
  | cons entry rest ih =>
    rcases ih h with ⟨other, ho, hother⟩ | ⟨hne, hrest⟩
    · exact .inl ⟨other, List.mem_cons_of_mem _ ho, hother⟩
    · change Function.update texts (f entry) (g entry) name = some text at hrest
      by_cases hn : name = f entry
      · rw [hn, Function.update_self] at hrest
        exact .inl ⟨entry, List.mem_cons_self, hn.symm, hrest⟩
      · rw [Function.update_of_ne hn] at hrest
        exact .inr ⟨List.forall_mem_cons.mpr ⟨Ne.symm hn, hne⟩, hrest⟩

/-! ## One view -/

namespace View

/-- What a view does to a key when it is published: it sets a text, drops the text, or leaves the
key alone. -/
def fate (view : View σ) (key : Key) : Option (Option String) :=
  match view.writes.find? key with
  | some text => some (some text)
  | none => if view.removals.contains key || view.cleared then some none else none

structure Within (view : View σ) (keys : Set Key) : Prop where
  writes : ∀ key text, view.writes.find? key = some text → key ∈ keys
  removals : ∀ key, view.removals.contains key = true → key ∈ keys

/-- Nothing that is staged in a view is about a name of the store. -/
structure Spares (view : View σ) (name : String) : Prop where
  uncleared : view.cleared = false
  removals : ∀ key, view.removals.contains key = true → key.storageKey ≠ name
  writes : ∀ key text, view.writes.find? key = some text → key.storageKey ≠ name

/-- The texts of a store after a view has been published, if they were the given ones before. -/
def published (view : View σ) (texts : Texts) : Texts :=
  setTexts
    (setTexts (if view.cleared then fun _ => none else texts) Key.storageKey (fun _ => none)
      view.removals.keys)
    (fun entry => entry.1.storageKey) (fun entry => some entry.2) view.writes.entries

@[simp] theorem fate_fresh (cache : NamedCache σ) (key : Key) : (fresh cache).fate key = none := rfl

@[simp] theorem fate_put (view : View σ) (key other : Key) (text : String) :
    (view.put key text).fate other =
      if other = key then some (some text) else view.fate other := by
  by_cases h : other = key <;> simp [fate, put, h]

@[simp] theorem fate_remove (view : View σ) (key other : Key) :
    (view.remove key).fate other = if other = key then some none else view.fate other := by
  by_cases h : other = key <;> simp [fate, remove, h]

@[simp] theorem fate_clear (view : View σ) (key : Key) : view.clear.fate key = some none := rfl

private theorem SameStaged.fate_eq {view other : View σ} (h : view.SameStaged other) :
    view.fate = other.fate := by
  funext key
  rw [fate, fate, Table.contains, Table.contains, Table.find?_eq_of_perm h.writes,
    Table.find?_eq_of_perm h.removals, h.cleared]

private theorem SameStaged.within {view other : View σ} (h : view.SameStaged other) {keys : Set Key}
    (hw : other.Within keys) : view.Within keys where
  writes key text := by
    rw [Table.find?_eq_of_perm h.writes]
    exact hw.writes key text
  removals key := by
    rw [Table.contains, Table.find?_eq_of_perm h.removals]
    exact hw.removals key

theorem SameStaged.spares {view other : View σ} (h : view.SameStaged other) {name : String}
    (spares : view.Spares name) : other.Spares name where
  uncleared := h.cleared ▸ spares.uncleared
  removals key hk := by
    refine spares.removals key ?_
    rwa [Table.contains, Table.find?_eq_of_perm h.removals]
  writes key text hw := by
    refine spares.writes key text ?_
    rwa [Table.find?_eq_of_perm h.writes]

theorem spares_fresh (cache : NamedCache σ) (name : String) : (fresh cache).Spares name where
  uncleared := rfl
  removals _ h := by simp [fresh] at h
  writes _ _ h := by simp [fresh] at h

theorem within_fresh (cache : NamedCache σ) (keys : Set Key) : (fresh cache).Within keys where
  writes _ _ h := by simp [fresh] at h
  removals _ h := by simp [fresh] at h

theorem Within.put {view : View σ} {keys : Set Key} (hw : view.Within keys) {key : Key}
    (hk : key ∈ keys) (text : String) : (view.put key text).Within keys where
  writes other t h := by
    by_cases ho : other = key
    · exact ho ▸ hk
    · exact hw.writes other t (by simpa [View.put, ho] using h)
  removals other h := by
    simp only [View.put, Table.contains_erase, Bool.and_eq_true] at h
    exact hw.removals other h.2

theorem Within.remove {view : View σ} {keys : Set Key} (hw : view.Within keys) {key : Key}
    (hk : key ∈ keys) : (view.remove key).Within keys where
  writes other t h := by
    by_cases ho : other = key
    · simp [View.remove, ho] at h
    · exact hw.writes other t (by simpa [View.remove, ho] using h)
  removals other h := by
    by_cases ho : other = key
    · exact ho ▸ hk
    · exact hw.removals other (by simpa [View.remove, ho] using h)

theorem within_clear (view : View σ) (keys : Set Key) : view.clear.Within keys where
  writes _ _ h := by simp [View.clear] at h
  removals _ h := by simp [View.clear] at h

section Published

variable {view : View σ} {keys : Set Key} (hw : view.Within keys)
  (inj : Set.InjOn Key.storageKey keys)
include hw

theorem published_of_ne (texts : Texts) {name : String}
    (h : ∀ key ∈ keys, key.storageKey ≠ name) :
    view.published texts name = if view.cleared then none else texts name := by
  rw [published, setTexts_of_ne, setTexts_of_ne]
  · split <;> rfl
  · intro key hk
    exact h key (hw.removals key ((view.removals.mem_keys_iff key).mp hk))
  · intro entry he
    exact h entry.1 (hw.writes entry.1 entry.2 ((view.writes.find?_eq_some_iff _ _).mpr he))

include inj

theorem published_storageKey (texts : Texts) {key : Key} (hk : key ∈ keys) :
    view.published texts key.storageKey = (view.fate key).getD (texts key.storageKey) := by
  have same : ∀ other, other ∈ keys → other.storageKey = key.storageKey → other = key :=
    fun other ho he => inj ho hk he
  have writesIn : ∀ entry ∈ view.writes.entries, entry.1 ∈ keys := fun entry he =>
    hw.writes entry.1 entry.2 ((view.writes.find?_eq_some_iff _ _).mpr he)
  rw [published, fate]
  cases hwrite : view.writes.find? key with
  | some text =>
    have hm : (key, text) ∈ view.writes.entries := (view.writes.find?_eq_some_iff _ _).mp hwrite
    refine setTexts_of_mem (f := fun entry => entry.1.storageKey) (g := fun entry => some entry.2)
      _ hm fun other ho hn => ?_
    have hkey : other.1 = key := same other.1 (writesIn other ho) hn
    have hfind := (view.writes.find?_eq_some_iff other.1 other.2).mpr ho
    rw [hkey, hwrite] at hfind
    exact hfind.symm
  | none =>
    rw [setTexts_of_ne]
    · by_cases hr : view.removals.contains key = true
      · have hm := (view.removals.mem_keys_iff key).mpr hr
        rw [setTexts_of_mem _ hm fun _ _ _ => rfl]
        simp [hr]
      · rw [setTexts_of_ne]
        · cases hc : view.cleared <;> simp [hr]
        · intro other ho he
          have hother := (view.removals.mem_keys_iff other).mp ho
          exact hr (same other (hw.removals other hother) he ▸ hother)
    · intro entry he hn
      have hkey := same entry.1 (writesIn entry he) hn
      have hfind := (view.writes.find?_eq_some_iff entry.1 entry.2).mpr he
      rw [hkey, hwrite] at hfind
      cases hfind

/-- A text after publication is the text that the fates of the keys give. -/
theorem published_eq_of {texts result : Texts}
    (atKey : ∀ key ∈ keys, result key.storageKey = (view.fate key).getD (texts key.storageKey))
    (elsewhere : ∀ name, (∀ key ∈ keys, key.storageKey ≠ name) →
      result name = if view.cleared then none else texts name) :
    view.published texts = result := by
  funext name
  by_cases h : ∃ key ∈ keys, key.storageKey = name
  · obtain ⟨key, hk, rfl⟩ := h
    rw [published_storageKey hw inj texts hk, atKey key hk]
  · have hne : ∀ key ∈ keys, key.storageKey ≠ name := fun key hk he => h ⟨key, hk, he⟩
    rw [published_of_ne hw texts hne, elsewhere name hne]

theorem published_put (texts : Texts) {key : Key} (hk : key ∈ keys) (text : String) :
    (view.put key text).published texts =
      Function.update (view.published texts) key.storageKey (some text) := by
  refine published_eq_of (hw.put hk text) inj (fun other ho => ?_) fun name hn => ?_
  · by_cases he : other = key
    · simp [he]
    · have hne : other.storageKey ≠ key.storageKey := fun h => he (inj ho hk h)
      rw [Function.update_of_ne hne, fate_put, if_neg he, published_storageKey hw inj texts ho]
  · rw [Function.update_of_ne (Ne.symm (hn key hk)), published_of_ne hw texts hn]
    rfl

theorem published_remove (texts : Texts) {key : Key} (hk : key ∈ keys) :
    (view.remove key).published texts =
      Function.update (view.published texts) key.storageKey none := by
  refine published_eq_of (hw.remove hk) inj (fun other ho => ?_) fun name hn => ?_
  · by_cases he : other = key
    · simp [he]
    · have hne : other.storageKey ≠ key.storageKey := fun h => he (inj ho hk h)
      rw [Function.update_of_ne hne, fate_remove, if_neg he, published_storageKey hw inj texts ho]
  · rw [Function.update_of_ne (Ne.symm (hn key hk)), published_of_ne hw texts hn]
    rfl

theorem SameStaged.published_eq {other : View σ} (h : other.SameStaged view) (texts : Texts) :
    other.published texts = view.published texts := by
  refine published_eq_of (h.within hw) inj (fun key hk => ?_) fun name hn => ?_
  · rw [published_storageKey hw inj texts hk, h.fate_eq]
  · rw [published_of_ne hw texts hn, h.cleared]

end Published

/-- A text that a store keeps after a view has been published is a write of the view, or was there
before and the view spares it. -/
theorem published_source {view : View σ} {texts : Texts} {name text : String}
    (h : view.published texts name = some text) :
    (∃ key, view.writes.find? key = some text ∧ key.storageKey = name) ∨
      view.Spares name ∧ texts name = some text := by
  rcases setTexts_source h with ⟨entry, he, hname, htext⟩ | ⟨hwrites, h⟩
  · refine .inl ⟨entry.1, ?_, hname⟩
    rw [← htext]
    exact (view.writes.find?_eq_some_iff _ _).mpr he
  · rcases setTexts_source h with ⟨_, -, -, hnone⟩ | ⟨hremovals, h⟩
    · cases hnone
    · cases hc : view.cleared with
      | true =>
        rw [hc] at h
        cases h
      | false =>
        rw [hc] at h
        refine .inr ⟨⟨hc, fun key hk => ?_, fun key staged hw => ?_⟩, h⟩
        · exact hremovals key ((view.removals.mem_keys_iff key).mpr hk)
        · exact hwrites (key, staged) ((view.writes.find?_eq_some_iff key staged).mp hw)

@[simp] theorem published_clear (view : View σ) (texts : Texts) :
    view.clear.published texts = fun _ => none := rfl

@[simp] theorem published_fresh (cache : NamedCache σ) (texts : Texts) :
    (fresh cache).published texts = texts := rfl

end View

/-! ## Carrying the changes to a healthy store -/

namespace MapFamily

variable [DecidableEq σ] {stores : Stores σ ω}

/-- On a store that is healthy the steps succeed, and they change what that store keeps, alone. -/
def Makes (maps : MapFamily stores) (store : σ) (steps : Action ω Unit)
    (change : Texts → Texts) : Prop :=
  ∀ world, maps.healthy world store → ∃ after, steps.runOn world = (.ok (), after) ∧
    maps.held after =
      Function.update (maps.held world) store (change (maps.held world store)) ∧
    ∀ other, maps.healthy world other → maps.healthy after other

variable {maps : MapFamily stores} {store : σ}

theorem makes_call {call : Action ω α} {answer : Texts → α} {change : Texts → Texts}
    (h : ActsOn maps.held maps.healthy store call answer change) :
    maps.Makes store (discard call) change := by
  intro world hw
  refine ⟨(call.runOn world).2, ?_, h.held_eq hw, h.keeps world⟩
  change ((fun _ => ()) <$> call).runOn world = _
  rw [Action.runOn_map, h.answer_eq hw]
  rfl

private theorem makes_unit {call : Action ω Unit} {answer : Texts → Unit} {change : Texts → Texts}
    (h : ActsOn maps.held maps.healthy store call answer change) :
    maps.Makes store call change := by
  intro world hw
  exact ⟨(call.runOn world).2, Prod.ext (h.answer_eq hw) rfl, h.held_eq hw, h.keeps world⟩

theorem makes_pure : maps.Makes store (pure ()) id := by
  intro world hw
  exact ⟨world, rfl, (Function.update_eq_self _ _).symm, fun _ h => h⟩

theorem Makes.bind {first next : Action ω Unit} {f g : Texts → Texts}
    (hf : maps.Makes store first f) (hg : maps.Makes store next g) :
    maps.Makes store (first >>= fun _ => next) (g ∘ f) := by
  intro world hw
  obtain ⟨middle, hfirst, hheld, hkeeps⟩ := hf world hw
  obtain ⟨after, hnext, hheld', hkeeps'⟩ := hg middle (hkeeps store hw)
  refine ⟨after, ?_, ?_, fun other h => hkeeps' other (hkeeps other h)⟩
  · rw [Action.runOn_bind, hfirst]
    exact hnext
  · rw [hheld', hheld, Function.update_self, Function.update_idem]
    rfl

private theorem makes_forM {entries : List β} {step : β → Action ω Unit} {name : β → String}
    {value : β → Option String} (h : ∀ entry, maps.Makes store (step entry)
      fun texts => Function.update texts (name entry) (value entry)) :
    maps.Makes store (entries.forM step) fun texts => setTexts texts name value entries := by
  induction entries with
  | nil => exact makes_pure
  | cons entry rest ih => exact (h entry).bind ih

theorem makes_publish (maps : MapFamily stores) (view : View σ) :
    maps.Makes view.cache.store (view.publish stores) view.published := by
  have removals : maps.Makes view.cache.store
      (view.removals.keys.forM fun key => discard (stores.remove view.cache.store key.storageKey))
      fun texts => setTexts texts Key.storageKey (fun _ => none) view.removals.keys :=
    makes_forM fun key => makes_call (maps.remove view.cache.store key.storageKey)
  have writes : maps.Makes view.cache.store
      (view.writes.entries.forM fun entry =>
        stores.put view.cache.store entry.1.storageKey entry.2)
      fun texts => setTexts texts (fun entry => entry.1.storageKey) (fun entry => some entry.2)
        view.writes.entries :=
    makes_forM fun entry => makes_unit (maps.put view.cache.store entry.1.storageKey entry.2)
  unfold View.publish View.publishInOrder View.published
  cases view.cleared with
  | false => exact removals.bind writes
  | true => exact (makes_unit (maps.clear view.cache.store)).bind (removals.bind writes)

end MapFamily

/-! ## Reading through a view -/

namespace View

variable [DecidableEq σ] {stores : Stores σ ω} (maps : MapFamily stores)

theorem world_get (view : View σ) (key : Key) (world : ω) :
    maps.held ((view.get stores key).runOn world).2 = maps.held world ∧
      ∀ other, maps.healthy world other →
        maps.healthy ((view.get stores key).runOn world).2 other := by
  rw [View.get]
  split
  · exact ⟨rfl, fun _ h => h⟩
  · split
    · exact ⟨rfl, fun _ h => h⟩
    · exact ⟨maps.held_get _ _ _, (maps.get _ _).keeps world⟩

theorem answer_get {view : View σ} {key : Key}
    (apart : view.removals.contains key = true → view.writes.find? key = none) {world : ω}
    (healthy : maps.healthy world view.cache.store) :
    ((view.get stores key).runOn world).1 = .ok (if view.cleared then none
      else (view.fate key).getD (maps.held world view.cache.store key.storageKey)) := by
  have hshared := (maps.get view.cache.store key.storageKey).answer_eq healthy
  rw [View.get, View.fate]
  cases hc : view.cleared with
  | true => rfl
  | false =>
    cases hr : view.removals.contains key with
    | true => simp [apart hr]
    | false =>
      cases hw : view.writes.find? key with
      | some text => simp
      | none => simpa using hshared

theorem source_get {view : View σ} {key : Key} {world : ω} {text : String}
    (h : ((view.get stores key).runOn world).1 = .ok (some text)) :
    view.writes.find? key = some text ∨
      maps.held world view.cache.store key.storageKey = some text := by
  rw [View.get] at h
  split at h
  · cases h
  · cases hw : view.writes.find? key with
    | some staged =>
      rw [hw] at h
      cases h
      exact .inl rfl
    | none =>
      rw [hw] at h
      rcases (maps.get view.cache.store key.storageKey).answers world with ha | ⟨-, e, ha⟩
      · exact .inr (Except.ok.inj (ha.symm.trans h))
      · cases ha.symm.trans h

end View
end ResultCache
