import ResultCache.Proofs.Redis.Scopes

/-!
# What a clear reaches

A pattern holds the prefix as it stands, so it need not match what was written under the prefix.
-/

namespace ResultCache

namespace Redis.Pattern

/-- A text in which no class begins and nothing is escaped. -/
def Unescaped (s : String) : Prop := '[' ∉ s.toList ∧ '\\' ∉ s.toList

instance (s : String) : Decidable (Unescaped s) := inferInstanceAs (Decidable (_ ∧ _))

private theorem unescaped_of_plain {s : String} (h : Plain s) : Unescaped s :=
  ⟨fun hopening => absurd (h _ hopening) (by decide),
    fun hbackslash => absurd (h _ hbackslash) (by decide)⟩

private theorem Unescaped.append {s t : String} (hs : Unescaped s) (ht : Unescaped t) :
    Unescaped (s ++ t) := by
  simp only [Unescaped, String.toList_append, List.mem_append, not_or]
  exact ⟨⟨hs.1, ht.1⟩, hs.2, ht.2⟩

private theorem Unescaped.ne_of_mem_ofText {s : String} (h : Unescaped s) {b : UInt8}
    (hb : b ∈ Bytes.ofText s) : b ≠ opening ∧ b ≠ backslash := by
  constructor
  · rintro rfl
    exact h.1 (Bytes.mem_of_mem_ofText hb (by decide) rfl)
  · rintro rfl
    exact h.2 (Bytes.mem_of_mem_ofText hb (by decide) rfl)

theorem fits_items_append {bytes : Bytes} (h : ∀ b ∈ bytes, b ≠ opening ∧ b ≠ backslash)
    (rest : Bytes) : fits (items (bytes ++ [star])) (bytes ++ rest) = true := by
  induction bytes with
  | nil => exact (fits_append_any [] rest).mpr List.nil_prefix
  | cons b bytes ih =>
    obtain ⟨hopening, hbackslash⟩ := h b List.mem_cons_self
    have hrest := ih fun c hc => h c (List.mem_cons_of_mem b hc)
    rw [List.cons_append, List.cons_append]
    rcases eq_or_ne b star with rfl | hstar
    · have htail : bytes ++ rest ∈ (star :: (bytes ++ rest)).tails :=
        (List.mem_tails _ _).mpr (List.suffix_cons _ _)
      exact List.any_eq_true.mpr ⟨bytes ++ rest, htail, hrest⟩
    · rcases eq_or_ne b question with rfl | hquestion
      · exact hrest
      · rw [items_cons hstar hquestion hopening hbackslash]
        simpa [fits, Item.admits] using hrest

private theorem matchesKey_self_append {s : String} (h : Unescaped s) (rest : String) :
    matchesKey (s ++ "*") (s ++ rest) = true := by
  have hstar : Bytes.ofText "*" = [star] := rfl
  rw [matchesKey, Bytes.ofText_append, Bytes.ofText_append, hstar]
  exact fits_items_append (fun _ => h.ne_of_mem_ofText) _

end Redis.Pattern

namespace Redis

open Pattern

variable {ν : Type} {call : Answering ν}

namespace Scope

/-- The pattern of the handle matches the key of an entry. -/
def Reaches (scope : Scope) (name : String) : Prop :=
  matchesKey (scope.keyOf "*") (scope.keyOf name) = true

instance (scope : Scope) (name : String) : Decidable (scope.Reaches name) :=
  inferInstanceAs (Decidable (_ = true))

theorem reaches_of_unescaped {scope : Scope} (h : Unescaped scope.stem) (name : String) :
    scope.Reaches name := by
  rw [Reaches, keyOf_eq, keyOf_eq]
  exact matchesKey_self_append h name

private theorem unescaped_stem_namespaced {root : Scope} {space : String}
    (hroot : ∀ s ∈ root.keyPrefix, Unescaped s) (hspace : Plain space) :
    Unescaped (root.namespaced space).stem := by
  have hcolon : Unescaped ":" := by decide
  have hown : Unescaped (space ++ ":") := (unescaped_of_plain hspace).append hcolon
  rw [stem_namespaced]
  refine Unescaped.append ?_ hown
  cases hprefix : root.keyPrefix with
  | none => decide
  | some s => exact (hroot s hprefix).append hcolon

def putAll (server : Server ν) (scope : Scope) (entries : List (String × String)) :
    Action ν Unit :=
  entries.forM fun entry => put server scope entry.1 entry.2

def written (scope : Scope) (entries : List (String × String)) (texts : Texts) : Texts :=
  entries.foldl
    (fun texts entry => Function.update texts (scope.keyOf entry.1) (some entry.2)) texts

variable (scope : Scope)

private theorem written_keyOf (entries : List (String × String)) (texts : Texts) (name : String) :
    scope.written entries texts (scope.keyOf name) =
      (entries.reverse.lookup name).or (texts (scope.keyOf name)) := by
  induction entries generalizing texts with
  | nil => rfl
  | cons entry entries ih =>
    have hfirst : Function.update texts (scope.keyOf entry.1) (some entry.2) (scope.keyOf name) =
        ([entry].lookup name).or (texts (scope.keyOf name)) := by
      simp only [Function.update_apply, keyOf_inj, Table.lookup_cons_ite, List.lookup_nil]
      by_cases hname : name = entry.1 <;> simp [hname]
    have hstep : scope.written (entry :: entries) texts = scope.written entries
        (Function.update texts (scope.keyOf entry.1) (some entry.2)) := rfl
    rw [hstep, ih, hfirst, List.reverse_cons, List.lookup_append, Option.or_assoc]

theorem does_putAll (flat : Flat call) (entries : List (String × String)) (world : ν) :
    flat.Does (putAll · scope entries) world () (scope.written entries (flat.held world)) := by
  induction entries generalizing world with
  | nil => exact ⟨world, Finishes.of_forall fun _ => rfl, rfl⟩
  | cons entry entries ih =>
    obtain ⟨between, hput, hbetween⟩ := flat.does_put scope world entry.1 entry.2
    obtain ⟨after, hrest, hafter⟩ := ih between
    refine ⟨after, hput.bind hrest, ?_⟩
    rw [hafter, hbetween]
    rfl

/-- How a handle counts and clears where the server holds the given entries of the handle's: of
these, the ones that the pattern matches, and no others. -/
structure Sweeps (flat : Flat call) (scope : Scope) (entries : List (String × String))
    (full : ν) : Prop where
  /-- The size is the number of keys that are held and matched, the matched ones of the handle's
  entries among them. -/
  counted : ∃ keys : List String, flat.Does (size · scope) full keys.length (flat.held full) ∧
    (∀ key, key ∈ keys ↔
      (flat.held full key).isSome ∧ matchesKey (scope.keyOf "*") key = true) ∧
    (ListsOnce call → keys.Nodup) ∧
    ∀ name ∈ entries.map Prod.fst, scope.keyOf name ∈ keys ↔ scope.Reaches name
  /-- However long after the clear an entry is read, it is gone if the pattern matches its key, and
  otherwise it is the text that was written last. -/
  cleared : ∃ texts, flat.Does (clear · scope) full () texts ∧
    ∀ later, flat.held later = texts → ∀ name ∈ entries.map Prod.fst,
      flat.Does (get · scope name) later
        (if scope.Reaches name then none else entries.reverse.lookup name) texts

theorem sweeps_of_written {flat : Flat call} (hscoped : scope.isScoped = true)
    {entries : List (String × String)} {texts : Texts} {full : ν}
    (hfull : flat.held full = scope.written entries texts) : Sweeps flat scope entries full := by
  have hheld (name : String) (hname : name ∈ entries.map Prod.fst) :
      ∃ text, entries.reverse.lookup name = some text ∧
        flat.held full (scope.keyOf name) = some text := by
    have hsome : (entries.reverse.lookup name).isSome := by
      obtain ⟨entry, hentry, rfl⟩ := List.mem_map.mp hname
      exact List.lookup_isSome_iff.mpr ⟨entry, List.mem_reverse.mpr hentry, beq_self_eq_true _⟩
    obtain ⟨text, htext⟩ := Option.isSome_iff_exists.mp hsome
    rw [hfull, written_keyOf, htext]
    exact ⟨text, rfl, rfl⟩
  constructor
  · obtain ⟨keys, hsize, hkeys, honce⟩ := flat.does_size full hscoped
    refine ⟨keys, hsize, hkeys, honce, fun name hname => ?_⟩
    obtain ⟨text, -, htext⟩ := hheld name hname
    rw [hkeys, htext]
    simp [Reaches]
  · refine ⟨_, flat.does_clear full hscoped, fun later hlater name hname => ?_⟩
    obtain ⟨text, hlast, htext⟩ := hheld name hname
    have hleft : flat.held later (scope.keyOf name) =
        if scope.Reaches name then none else entries.reverse.lookup name := by
      rw [hlater, hlast, ← htext]
      rfl
    rw [← hlater, ← hleft]
    exact flat.does_get scope later name

/-- Whatever a handle of an accepted namespace has written, it counts and clears the entries whose
keys its pattern matches. These are all of them if no class begins in the prefix and nothing is
escaped there. -/
theorem sweeps_of_validate (flat : Flat call) (root : Scope) {names : List String}
    (hnames : Registry.validate names = .ok ()) {space : String} (hspace : space ∈ names)
    (entries : List (String × String)) (world : ν) :
    (∃ texts, flat.Does (putAll · (root.namespaced space) entries) world () texts ∧
      ∀ full, flat.held full = texts → Sweeps flat (root.namespaced space) entries full) ∧
    ((∀ s ∈ root.keyPrefix, Unescaped s) → ∀ name, (root.namespaced space).Reaches name) := by
  have hplain := Registry.plain_of_validate hnames space hspace
  refine ⟨⟨_, does_putAll _ flat entries world, fun full hfull => ?_⟩, fun hroot => ?_⟩
  · exact sweeps_of_written _ (isScoped_namespaced root space) hfull
  · exact reaches_of_unescaped (unescaped_stem_namespaced hroot hplain)

/-- A prefix of stars and question marks matches itself. -/
theorem sweeps_of_starred_prefix :
    let users := namespaced ⟨some "a*?]", none, 60⟩ "users"
    ∃ full after, Finishes (TwoPages.call 1) (putAll · users [("k", "1"), ("k", "2")])
        Table.empty (.ok (), full) ∧
      Finishes (TwoPages.call 1) (clear · users) full (.ok (), after) ∧
      (TwoPages.flat 1).Does (get · users "k") after none after.find? := by
  intro users
  have hnames : Registry.validate ["users", "orders"] = .ok () := rfl
  have hmem : "users" ∈ ["users", "orders"] := List.mem_cons_self
  obtain ⟨⟨texts, ⟨full, hputs, hfull⟩, hsweeps⟩, hreaches⟩ :=
    sweeps_of_validate (TwoPages.flat 1) ⟨some "a*?]", none, 60⟩ hnames hmem
      [("k", "1"), ("k", "2")] Table.empty
  have hroot : ∀ s ∈ some "a*?]", Unescaped s := by
    rintro s ⟨⟩
    decide
  obtain ⟨emptied, ⟨after, hclear, hafter⟩, hget⟩ := (hsweeps full hfull).cleared
  have hmiss := hget after hafter "k" (by decide)
  rw [if_pos (hreaches hroot "k"), ← hafter] at hmiss
  exact ⟨full, after, hputs, hclear, hmiss⟩

/-- A prefix in brackets is read as a class, which the prefix does not begin with: what the handle
has written is not counted, and stays when the handle is cleared. -/
theorem clear_leaves_bracketed_prefix :
    let users := namespaced ⟨some "[x]", none, 60⟩ "users"
    Registry.validate ["users"] = .ok () ∧ ∃ world after,
      Finishes (TwoPages.call 1) (put · users "k" "1") Table.empty (.ok (), world) ∧
      Finishes (TwoPages.call 1) (size · users) world (.ok 0, world) ∧
      Finishes (TwoPages.call 1) (clear · users) world (.ok (), after) ∧
      Finishes (TwoPages.call 1) (get · users "k") after (.ok (some "1"), after) := by
  intro users
  let world : Table String String := Table.empty.set "[x]:users:k" "1"
  have hput : Finishes (TwoPages.call 1) (put · users "k" "1") Table.empty (.ok (), world) :=
    Finishes.of_forall fun _ => rfl
  have hsize : Finishes (TwoPages.call 1) (size · users) world (.ok 0, world) := by
    refine ⟨2, fun patience hp => ?_⟩
    obtain ⟨n, rfl⟩ := Nat.exists_eq_add_of_le' hp
    rfl
  obtain ⟨after, hclear, hafter⟩ :=
    (TwoPages.flat 1).does_clear world (isScoped_namespaced ⟨some "[x]", none, 60⟩ "users")
  have hmissed : ¬ users.Reaches "k" := by decide
  have hkept : after.find? (users.keyOf "k") = some "1" :=
    (congrFun hafter (users.keyOf "k")).trans (if_neg hmissed)
  have hreply : TwoPages.call 1 ["GET", users.keyOf "k"] after = (.ok (.bulk "1"), after) := by
    simp only [TwoPages.call, hkept, Option.elim]
  have hbulk : (Reply.bulk "1").text? = .ok (some "1") := rfl
  exact ⟨rfl, world, after, hput, hsize, hclear, finishes_ask hreply hbulk (.redisGet "k")⟩

end Scope
end Redis
end ResultCache
