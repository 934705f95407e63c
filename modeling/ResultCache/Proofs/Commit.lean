import Mathlib.Data.List.Nodup
import ResultCache.Proofs.Publication

/-!
# What a commit comes to

Where ids and stores belong together one to one, every store is changed by at most one view.
-/

namespace ResultCache

variable {σ ω : Type}

/-- Caches and keys that do not get into each other's way: ids and stores belong together one to
one, and different keys have different storage names. -/
structure Separate (caches : Set (NamedCache σ)) (keys : Set Key) : Prop where
  oneStore : ∀ a ∈ caches, ∀ b ∈ caches, a.id = b.id → a.store = b.store
  oneId : ∀ a ∈ caches, ∀ b ∈ caches, a.store = b.store → a.id = b.id
  oneKey : Set.InjOn Key.storageKey keys

theorem oneStore_singleton (cache : NamedCache σ) :
    ∀ a ∈ ({cache} : Set (NamedCache σ)), ∀ b ∈ ({cache} : Set (NamedCache σ)),
      a.id = b.id → a.store = b.store := by
  rintro a rfl b rfl _
  rfl

theorem oneId_singleton (cache : NamedCache σ) :
    ∀ a ∈ ({cache} : Set (NamedCache σ)), ∀ b ∈ ({cache} : Set (NamedCache σ)),
      a.store = b.store → a.id = b.id := by
  rintro a rfl b rfl _
  rfl

section PublishedViews

variable [DecidableEq σ]

/-- What all stores keep after some views have been published, one after the other. -/
def publishedViews (views : List (View σ)) (held : σ → Texts) : σ → Texts :=
  views.foldl
    (fun held view =>
      Function.update held view.cache.store (view.published (held view.cache.store)))
    held

theorem publishedViews_of_ne {views : List (View σ)} {store : σ}
    (h : ∀ view ∈ views, view.cache.store ≠ store) (held : σ → Texts) :
    publishedViews views held store = held store := by
  induction views generalizing held with
  | nil => rfl
  | cons view rest ih =>
    have hne : store ≠ view.cache.store := fun he => h view (by simp) he.symm
    have hrest := ih (fun v hv => h v (List.mem_cons_of_mem _ hv))
      (Function.update held view.cache.store (view.published (held view.cache.store)))
    rw [Function.update_of_ne hne] at hrest
    exact hrest

theorem publishedViews_of_mem {views : List (View σ)}
    (apart : (views.map fun view => view.cache.store).Nodup) {view : View σ} (hm : view ∈ views)
    (held : σ → Texts) :
    publishedViews views held view.cache.store = view.published (held view.cache.store) := by
  induction views generalizing held with
  | nil => cases hm
  | cons first rest ih =>
    have hd := List.nodup_cons.mp apart
    change publishedViews rest (Function.update held first.cache.store
      (first.published (held first.cache.store))) view.cache.store = _
    rcases List.mem_cons.mp hm with he | hr
    · have hne : ∀ v ∈ rest, v.cache.store ≠ first.cache.store := fun v hv h =>
        hd.1 (List.mem_map.mpr ⟨v, hv, h⟩)
      rw [he, publishedViews_of_ne hne, Function.update_self]
    · have hne : view.cache.store ≠ first.cache.store := fun h =>
        hd.1 (List.mem_map.mpr ⟨view, hr, h⟩)
      rw [ih hd.2 hr, Function.update_of_ne hne]

/-- A text that a store keeps after views have been published is a write of one of them, or was
there before and all of them spare it. -/
theorem publishedViews_source {views : List (View σ)} {held : σ → Texts}
    {store : σ} {name text : String} (h : publishedViews views held store name = some text) :
    (∃ view ∈ views, view.cache.store = store ∧ ∃ key, view.writes.find? key = some text ∧
        key.storageKey = name) ∨
      (∀ view ∈ views, view.cache.store = store → view.Spares name) ∧
        held store name = some text := by
  induction views generalizing held with
  | nil => exact .inr ⟨nofun, h⟩
  | cons view rest ih =>
    rcases ih h with ⟨other, ho, hother⟩ | ⟨spared, hrest⟩
    · exact .inl ⟨other, List.mem_cons_of_mem _ ho, hother⟩
    · change Function.update held view.cache.store (view.published (held view.cache.store)) store
        name = some text at hrest
      by_cases hs : store = view.cache.store
      · subst hs
        rw [Function.update_self] at hrest
        rcases View.published_source hrest with hwrite | ⟨hc, hheld⟩
        · exact .inl ⟨view, List.mem_cons_self, rfl, hwrite⟩
        · exact .inr ⟨List.forall_mem_cons.mpr ⟨fun _ => hc, spared⟩, hheld⟩
      · rw [Function.update_of_ne hs] at hrest
        exact .inr ⟨List.forall_mem_cons.mpr ⟨fun he => absurd he.symm hs, spared⟩, hrest⟩

theorem publishAll_of_healthy {stores : Stores σ ω} (maps : MapFamily stores)
    (views : List (View σ)) (world : ω)
    (healthy : ∀ view ∈ views, maps.healthy world view.cache.store) :
    ∃ after, Transaction.publishAll stores views world = (none, after) ∧
      maps.held after = publishedViews views (maps.held world) ∧
      ∀ other, maps.healthy world other → maps.healthy after other := by
  induction views generalizing world with
  | nil => exact ⟨world, rfl, rfl, fun _ h => h⟩
  | cons view rest ih =>
    obtain ⟨middle, hrun, hheld, hkeeps⟩ :=
      maps.makes_publish view world (healthy view (by simp))
    obtain ⟨after, hrest, hheld', hkeeps'⟩ :=
      ih middle fun v hv => hkeeps _ (healthy v (List.mem_cons_of_mem _ hv))
    refine ⟨after, ?_, ?_, fun other h => hkeeps' other (hkeeps other h)⟩
    · simp only [Transaction.publishAll, hrun, hrest]
    · rw [hheld', hheld]
      rfl

end PublishedViews

namespace Transaction

/-- Every view is filed under the id of its cache, and is about the given caches and keys. -/
structure Within (tx : Transaction σ) (caches : Set (NamedCache σ)) (keys : Set Key) : Prop where
  filed : ∀ id view, tx.views.find? id = some view → view.cache.id = id
  known : ∀ id view, tx.views.find? id = some view → view.cache ∈ caches
  keyed : ∀ id view, tx.views.find? id = some view → view.Within keys

theorem within_first (caches : Set (NamedCache σ)) (keys : Set Key) :
    (first : Transaction σ).Within caches keys where
  filed _ _ h := by simp [first] at h
  known _ _ h := by simp [first] at h
  keyed _ _ h := by simp [first] at h

theorem within_next (tx : Transaction σ) (caches : Set (NamedCache σ)) (keys : Set Key) :
    tx.next.Within caches keys where
  filed _ _ h := by simp [next] at h
  known _ _ h := by simp [next] at h
  keyed _ _ h := by simp [next] at h

section

variable {tx : Transaction σ} {caches : Set (NamedCache σ)} {keys : Set Key}
  (hw : tx.Within caches keys)
include hw

theorem viewOf_within (cache : NamedCache σ) : (tx.viewOf cache).Within keys := by
  cases hv : tx.views.find? cache.id with
  | none => simpa [viewOf, hv] using View.within_fresh cache keys
  | some view => simpa [viewOf, hv] using hw.keyed cache.id view hv

theorem viewOf_cache (oneStore : ∀ a ∈ caches, ∀ b ∈ caches, a.id = b.id → a.store = b.store)
    {cache : NamedCache σ} (hc : cache ∈ caches) : (tx.viewOf cache).cache = cache := by
  cases hv : tx.views.find? cache.id with
  | none => simp [viewOf, hv, View.fresh]
  | some view =>
    have hid := hw.filed cache.id view hv
    have hstore := oneStore view.cache (hw.known cache.id view hv) cache hc hid
    have heq : view.cache = cache := by
      cases hvc : view.cache
      cases cache
      simp_all
    simpa [viewOf, hv] using heq

theorem within_stage (oneStore : ∀ a ∈ caches, ∀ b ∈ caches, a.id = b.id → a.store = b.store)
    {cache : NamedCache σ} (hc : cache ∈ caches) {f : View σ → View σ}
    (hcache : ∀ view, (f view).cache = view.cache)
    (hview : (f (tx.viewOf cache)).Within keys) :
    (tx.stage cache f).Within caches keys := by
  have hviewCache : (f (tx.viewOf cache)).cache = cache := by
    rw [hcache, viewOf_cache hw oneStore hc]
  have found : ∀ id view, (tx.stage cache f).views.find? id = some view →
      id = cache.id ∧ view = f (tx.viewOf cache) ∨ tx.views.find? id = some view := by
    intro id view h
    by_cases hid : id = cache.id
    · simp only [stage, Table.find?_set, if_pos hid, Option.some.injEq] at h
      exact .inl ⟨hid, h.symm⟩
    · simp only [stage, Table.find?_set, if_neg hid] at h
      exact .inr h
  constructor
  · intro id view h
    rcases found id view h with ⟨hid, hv⟩ | h
    · rw [hv, hviewCache, hid]
    · exact hw.filed id view h
  · intro id view h
    rcases found id view h with ⟨-, hv⟩ | h
    · rw [hv, hviewCache]
      exact hc
    · exact hw.known id view h
  · intro id view h
    rcases found id view h with ⟨-, hv⟩ | h
    · rw [hv]
      exact hview
    · exact hw.keyed id view h

end

def published [DecidableEq σ] (tx : Transaction σ) (held : σ → Texts) : σ → Texts :=
  publishedViews (tx.views.entries.map Prod.snd) held

section Published

variable {tx : Transaction σ} {caches : Set (NamedCache σ)} {keys : Set Key}
  (hw : tx.Within caches keys) (sep : Separate caches keys)
include hw sep

private theorem stores_nodup :
    ((tx.views.entries.map Prod.snd).map fun view => view.cache.store).Nodup := by
  rw [List.map_map]
  refine List.Nodup.map_on (fun a ha b hb h => ?_) (List.Nodup.of_map _ tx.views.distinct)
  have hfa := (tx.views.find?_eq_some_iff a.1 a.2).mpr ha
  have hfb := (tx.views.find?_eq_some_iff b.1 b.2).mpr hb
  have hid := sep.oneId a.2.cache (hw.known _ _ hfa) b.2.cache (hw.known _ _ hfb) h
  rw [hw.filed _ _ hfa, hw.filed _ _ hfb] at hid
  exact List.inj_on_of_nodup_map tx.views.distinct ha hb hid

variable [DecidableEq σ]

theorem published_store (held : σ → Texts) {cache : NamedCache σ} (hc : cache ∈ caches) :
    tx.published held cache.store = (tx.viewOf cache).published (held cache.store) := by
  cases hv : tx.views.find? cache.id with
  | none =>
    have hne : ∀ view ∈ tx.views.entries.map Prod.snd, view.cache.store ≠ cache.store := by
      intro view hm he
      obtain ⟨entry, hentry, rfl⟩ := List.mem_map.mp hm
      have hfind := (tx.views.find?_eq_some_iff entry.1 entry.2).mpr hentry
      have hid := sep.oneId entry.2.cache (hw.known _ _ hfind) cache hc he
      rw [hw.filed _ _ hfind] at hid
      rw [hid, hv] at hfind
      cases hfind
    rw [published, publishedViews_of_ne hne]
    simp [viewOf, hv]
  | some view =>
    have hm : view ∈ tx.views.entries.map Prod.snd :=
      List.mem_map.mpr ⟨(cache.id, view), (tx.views.find?_eq_some_iff _ _).mp hv, rfl⟩
    have hcache : (tx.viewOf cache).cache = cache := viewOf_cache hw sep.oneStore hc
    have hview : tx.viewOf cache = view := by simp [viewOf, hv]
    rw [hview] at hcache ⊢
    rw [published, ← hcache, publishedViews_of_mem (stores_nodup hw sep) hm]

omit sep in
private theorem published_of_ne (held : σ → Texts) {store : σ}
    (h : ∀ cache ∈ caches, cache.store ≠ store) : tx.published held store = held store := by
  refine publishedViews_of_ne (fun view hm => ?_) held
  obtain ⟨entry, hentry, rfl⟩ := List.mem_map.mp hm
  exact h entry.2.cache (hw.known _ _ ((tx.views.find?_eq_some_iff _ _).mpr hentry))

theorem published_stage (held : σ → Texts) {cache : NamedCache σ} (hc : cache ∈ caches)
    {f : View σ → View σ} {g : Texts → Texts}
    (hcache : ∀ view, (f view).cache = view.cache)
    (hview : (f (tx.viewOf cache)).Within keys)
    (heffect : ∀ texts, (f (tx.viewOf cache)).published texts =
      g ((tx.viewOf cache).published texts)) :
    (tx.stage cache f).published held =
      Function.update (tx.published held) cache.store (g (tx.published held cache.store)) := by
  have hw' := within_stage hw sep.oneStore hc hcache hview
  funext store
  by_cases hs : ∃ other ∈ caches, other.store = store
  · obtain ⟨other, ho, rfl⟩ := hs
    rw [published_store hw' sep held ho]
    by_cases hid : other.id = cache.id
    · have hstore := sep.oneStore other ho cache hc hid
      have hview : (tx.stage cache f).viewOf other = f (tx.viewOf cache) := by
        simp [viewOf, stage, hid]
      rw [hview, heffect, hstore, Function.update_self, published_store hw sep held hc]
    · have hne : other.store ≠ cache.store := fun h => hid (sep.oneId other ho cache hc h)
      rw [viewOf_stage_of_ne tx f hid, Function.update_of_ne hne,
        published_store hw sep held ho]
  · have hne : ∀ other ∈ caches, other.store ≠ store := fun other ho h => hs ⟨other, ho, h⟩
    rw [published_of_ne hw' held hne, Function.update_of_ne (Ne.symm (hne cache hc)),
      published_of_ne hw held hne]

theorem published_order (order : CommitOrder σ) (held : σ → Texts) :
    publishedViews ((order.views tx.views).map order.arrange) held = tx.published held := by
  have stores : (((order.views tx.views).map order.arrange).map fun view => view.cache.store) =
      (order.views tx.views).map fun view => view.cache.store := by
    rw [List.map_map]
    exact List.map_congr_left fun view _ =>
      congrArg NamedCache.store (order.arrange_same view).cache
  have perm := order.views_perm tx.views
  have nodup := stores_nodup hw sep
  have nodup' : (((order.views tx.views).map order.arrange).map
      fun view => view.cache.store).Nodup := by
    rw [stores]
    exact (perm.map _).nodup_iff.mpr nodup
  funext store
  by_cases h : ∃ view ∈ tx.views.entries.map Prod.snd, view.cache.store = store
  · obtain ⟨view, hm, rfl⟩ := h
    have hkeyed : view.Within keys := by
      obtain ⟨entry, hentry, rfl⟩ := List.mem_map.mp hm
      exact hw.keyed entry.1 entry.2 ((tx.views.find?_eq_some_iff _ _).mpr hentry)
    have hm' : order.arrange view ∈ (order.views tx.views).map order.arrange :=
      List.mem_map_of_mem (perm.mem_iff.mpr hm)
    have hpub := publishedViews_of_mem nodup' hm' held
    rw [(order.arrange_same view).cache,
      View.SameStaged.published_eq hkeyed sep.oneKey (order.arrange_same view)] at hpub
    rw [hpub, published, publishedViews_of_mem nodup hm]
  · have hne : ∀ view ∈ tx.views.entries.map Prod.snd, view.cache.store ≠ store :=
      fun view hm he => h ⟨view, hm, he⟩
    have hne' : ∀ view ∈ (order.views tx.views).map order.arrange, view.cache.store ≠ store := by
      intro view hm
      obtain ⟨original, ho, rfl⟩ := List.mem_map.mp hm
      rw [(order.arrange_same original).cache]
      exact hne original (perm.mem_iff.mp ho)
    rw [published, publishedViews_of_ne hne, publishedViews_of_ne hne']

end Published

/-- A commit on healthy stores succeeds, and publishes the views in its order. -/
theorem commitIn_of_healthy [DecidableEq σ] {stores : Stores σ ω} (maps : MapFamily stores)
    {tx : Transaction σ} {caches : Set (NamedCache σ)} {keys : Set Key}
    (hw : tx.Within caches keys) (order : CommitOrder σ) (world : ω)
    (healthy : ∀ cache ∈ caches, maps.healthy world cache.store) :
    ∃ after, (commitIn stores order).runOn (tx, world) = (.ok (), (tx.next, after)) ∧
      maps.held after =
        publishedViews ((order.views tx.views).map order.arrange) (maps.held world) ∧
      ∀ other, maps.healthy world other → maps.healthy after other := by
  have visited : ∀ view ∈ (order.views tx.views).map order.arrange,
      maps.healthy world view.cache.store := by
    intro view hm
    obtain ⟨original, ho, rfl⟩ := List.mem_map.mp hm
    obtain ⟨entry, hentry, rfl⟩ := List.mem_map.mp ((order.views_perm tx.views).mem_iff.mp ho)
    rw [(order.arrange_same entry.2).cache]
    exact healthy _ (hw.known _ _ ((tx.views.find?_eq_some_iff _ _).mpr hentry))
  obtain ⟨after, hrun, hheld, hkeeps⟩ := publishAll_of_healthy maps _ world visited
  refine ⟨after, ?_, hheld, hkeeps⟩
  rw [runOn_commitIn, hrun]
  rfl

theorem held_after_commitIn [DecidableEq σ] {stores : Stores σ ω} (maps : MapFamily stores)
    {tx : Transaction σ} {caches : Set (NamedCache σ)} {keys : Set Key}
    (hw : tx.Within caches keys) (sep : Separate caches keys) (order : CommitOrder σ) (world : ω)
    (healthy : ∀ cache ∈ caches, maps.healthy world cache.store)
    {cache : NamedCache σ} (hc : cache ∈ caches) {key : Key} (hkey : key ∈ keys) {text : String}
    (staged : (tx.viewOf cache).writes.find? key = some text) :
    ∃ after, (commitIn stores order).runOn (tx, world) = (.ok (), (tx.next, after)) ∧
      maps.held after cache.store key.storageKey = some text ∧
      maps.healthy after cache.store := by
  obtain ⟨after, hrun, hheld, hkeeps⟩ := commitIn_of_healthy maps hw order world healthy
  refine ⟨after, hrun, ?_, hkeeps cache.store (healthy cache hc)⟩
  rw [hheld, published_order hw sep, published_store hw sep _ hc,
    View.published_storageKey (viewOf_within hw cache) sep.oneKey _ hkey, View.fate, staged]
  rfl

theorem getText_first_of_held [DecidableEq σ] {stores : Stores σ ω} (maps : MapFamily stores)
    {cache : NamedCache σ} {key : Key} {text : String} {world : ω}
    (healthy : maps.healthy world cache.store)
    (held : maps.held world cache.store key.storageKey = some text) :
    ((getText stores cache key).runOn (.first, world)).1 = .ok (some text) := by
  have hview : first.viewOf cache = View.fresh cache := rfl
  rw [runOn_getText, hview, View.get_fresh,
    (maps.get cache.store key.storageKey).answer_eq healthy, held]

end Transaction
end ResultCache
