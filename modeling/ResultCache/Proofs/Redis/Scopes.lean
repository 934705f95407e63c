import ResultCache.Proofs.Namespaces
import ResultCache.Proofs.Redis.Servers
import ResultCache.Proofs.Separators

/-!
# The keys of a handle

Namespaces hold no pattern characters, but they may hold a colon.
-/

namespace ResultCache

namespace Registry

open Redis.Pattern

theorem plain_of_validate {names : List String} (h : validate names = .ok ()) :
    ∀ name ∈ names, Plain name := by
  intro name hname c hc
  rw [Bool.eq_false_iff, Ne, isGlobChar_iff]
  exact (usable_of_validate h).unpatterned name hname c hc

end Registry

namespace Redis

open Pattern

namespace Scope

/-- What all keys of a handle begin with. -/
def stem (scope : Scope) : String :=
  scope.keyPrefix.elim "" (· ++ ":") ++ scope.space.elim "" (· ++ ":")

theorem keyOf_eq (scope : Scope) (name : String) : scope.keyOf name = scope.stem ++ name := by
  rcases scope with ⟨_ | keyPrefix, _ | space, ttl⟩ <;>
    simp [keyOf, stem, String.intercalate_cons_cons, String.append_assoc]

@[simp] theorem keyOf_inj {scope : Scope} {name other : String} :
    scope.keyOf name = scope.keyOf other ↔ name = other := by
  simp [keyOf_eq]

/-- Whether a key is one under which the handle keeps an entry. -/
def Owns (scope : Scope) (key : String) : Prop := ∃ name, key = scope.keyOf name

theorem owns_iff (scope : Scope) (key : String) :
    scope.Owns key ↔ scope.stem.toList <+: key.toList := by
  constructor
  · rintro ⟨name, rfl⟩
    rw [keyOf_eq, String.toList_append]
    exact List.prefix_append _ _
  · rintro ⟨chars, h⟩
    refine ⟨String.ofList chars, ?_⟩
    rw [keyOf_eq, ← String.toList_inj, String.toList_append, String.toList_ofList, h]

instance (scope : Scope) (key : String) : Decidable (scope.Owns key) :=
  decidable_of_iff _ (scope.owns_iff key).symm

variable {scope : Scope}

private theorem plain_stem (hroot : ∀ s ∈ scope.keyPrefix, Plain s)
    (hspace : ∀ s ∈ scope.space, Plain s) :
    Plain scope.stem := by
  have hcolon {part : Option String} (h : ∀ s ∈ part, Plain s) :
      Plain (part.elim "" (· ++ ":")) := by
    intro c hc
    cases part with
    | none => cases hc
    | some s =>
      rcases List.mem_append.mp (String.toList_append ▸ hc) with hs | hs
      · exact h s rfl c hs
      · rw [List.mem_singleton.mp hs]
        rfl
  intro c hc
  rw [stem, String.toList_append] at hc
  rcases List.mem_append.mp hc with hc | hc
  · exact hcolon hroot c hc
  · exact hcolon hspace c hc

private theorem matchesKey_keyOf_star (h : Plain scope.stem) (key : String) :
    matchesKey (scope.keyOf "*") key = true ↔ scope.Owns key := by
  rw [keyOf_eq, matchesKey_append_star h]
  simp only [Owns, keyOf_eq]

variable {ν : Type} {call : Answering ν}

theorem isScoped_namespaced (root : Scope) (space : String) :
    (root.namespaced space).isScoped = true := by
  simp [isScoped, namespaced]

theorem does_clear_owned (flat : Flat call) (hscoped : scope.isScoped = true)
    (hplain : Plain scope.stem) (world : ν) :
    flat.Does (clear · scope) world ()
      fun key => if scope.Owns key then none else flat.held world key := by
  have hclear := flat.does_clear world hscoped
  simpa only [matchesKey_keyOf_star hplain] using hclear

theorem does_size_owned (flat : Flat call) (hscoped : scope.isScoped = true)
    (hplain : Plain scope.stem) (world : ν) : ∃ keys : List String,
    flat.Does (size · scope) world keys.length (flat.held world) ∧
      (∀ key, key ∈ keys ↔ (flat.held world key).isSome ∧ scope.Owns key) ∧
      (ListsOnce call → keys.Nodup) := by
  have hsize := flat.does_size world hscoped
  simpa only [matchesKey_keyOf_star hplain] using hsize

variable {root : Scope} {a b name other : String}

theorem stem_namespaced (root : Scope) (space : String) :
    (root.namespaced space).stem = root.keyPrefix.elim "" (· ++ ":") ++ (space ++ ":") := rfl

theorem plain_stem_namespaced (hroot : ∀ s ∈ root.keyPrefix, Plain s) (h : Plain a) :
    Plain (root.namespaced a).stem := by
  have hspace : ∀ s ∈ (root.namespaced a).space, Plain s := by
    rintro s ⟨⟩
    exact h
  exact plain_stem hroot hspace

private theorem append_colon_eq_iff : a ++ ":" ++ name = b ++ ":" ++ other ↔
    (a = b ∧ name = other) ∨ (∃ tail, b = a ++ ":" ++ tail ∧ name = tail ++ ":" ++ other) ∨
      ∃ tail, a = b ++ ":" ++ tail ∧ other = tail ++ ":" ++ name := by
  have hlist (s t : String) : (s ++ ":" ++ t).toList = s.toList ++ ':' :: t.toList := by
    rw [String.append_assoc, String.toList_append, String.toList_append]
    rfl
  constructor
  · intro h
    have hchars := congrArg String.toList h
    rw [hlist, hlist, append_cons_eq_append_cons_iff] at hchars
    rcases hchars with ⟨hab, hrest⟩ | ⟨tail, hb, hname⟩ | ⟨tail, ha, hother⟩
    · exact .inl ⟨String.toList_inj.mp hab, String.toList_inj.mp hrest⟩
    · refine .inr (.inl ⟨String.ofList tail, ?_, ?_⟩)
      · rw [← String.toList_inj, hlist, hb, String.toList_ofList]
      · rw [← String.toList_inj, hlist, hname, String.toList_ofList]
    · refine .inr (.inr ⟨String.ofList tail, ?_, ?_⟩)
      · rw [← String.toList_inj, hlist, ha, String.toList_ofList]
      · rw [← String.toList_inj, hlist, hother, String.toList_ofList]
  · rintro (⟨rfl, rfl⟩ | ⟨tail, rfl, rfl⟩ | ⟨tail, rfl, rfl⟩)
    · rfl
    · simp only [String.append_assoc]
    · simp only [String.append_assoc]

/-- The keys of two namespaces differ unless one of them goes on from the other after a colon. -/
theorem keyOf_namespaced_eq_iff :
    (root.namespaced a).keyOf name = (root.namespaced b).keyOf other ↔ (a = b ∧ name = other) ∨
      (∃ tail, b = a ++ ":" ++ tail ∧ name = tail ++ ":" ++ other) ∨
        ∃ tail, a = b ++ ":" ++ tail ∧ other = tail ++ ":" ++ name := by
  rw [← append_colon_eq_iff]
  simp [keyOf_eq, stem_namespaced, String.append_assoc]

theorem owns_keyOf_namespaced_iff (hne : a ≠ b) :
    (root.namespaced a).Owns ((root.namespaced b).keyOf name) ↔ (∃ tail, b = a ++ ":" ++ tail) ∨
      ∃ tail rest, a = b ++ ":" ++ tail ∧ name = tail ++ ":" ++ rest := by
  simp only [Owns, keyOf_namespaced_eq_iff]
  constructor
  · rintro ⟨rest, ⟨rfl, -⟩ | ⟨tail, ha, hname⟩ | ⟨tail, hb, -⟩⟩
    · exact absurd rfl hne
    · exact .inr ⟨tail, rest, ha, hname⟩
    · exact .inl ⟨tail, hb⟩
  · rintro (⟨tail, hb⟩ | ⟨tail, rest, ha, hname⟩)
    · exact ⟨tail ++ ":" ++ name, .inr (.inr ⟨tail, hb, rfl⟩)⟩
    · exact ⟨rest, .inr (.inl ⟨tail, ha, hname⟩)⟩

/-- Clearing through the handle of an accepted namespace drops the keys that the handle owns and no
others, and counting counts these. Among them are keys of another namespace exactly if one of the
two namespaces goes on from the other after a colon. -/
theorem clear_and_size_of_validate (flat : Flat call) (hroot : ∀ s ∈ root.keyPrefix, Plain s)
    {names : List String} (hnames : Registry.validate names = .ok ()) (ha : a ∈ names) (hne : a ≠ b)
    (world : ν) :
    flat.Does (clear · (root.namespaced a)) world ()
        (fun key => if (root.namespaced a).Owns key then none else flat.held world key) ∧
      (∃ keys : List String,
        flat.Does (size · (root.namespaced a)) world keys.length (flat.held world) ∧
          ∀ key, key ∈ keys ↔ (flat.held world key).isSome ∧ (root.namespaced a).Owns key) ∧
      ∀ name, (root.namespaced a).Owns ((root.namespaced b).keyOf name) ↔
        (∃ tail, b = a ++ ":" ++ tail) ∨
          ∃ tail rest, a = b ++ ":" ++ tail ∧ name = tail ++ ":" ++ rest := by
  have hplain := plain_stem_namespaced hroot (Registry.plain_of_validate hnames a ha)
  have hscoped := isScoped_namespaced root a
  obtain ⟨keys, hsize, hkeys, -⟩ := does_size_owned flat hscoped hplain world
  refine ⟨does_clear_owned flat hscoped hplain world, ⟨keys, hsize, hkeys⟩, fun name => ?_⟩
  exact owns_keyOf_namespaced_iff hne

/-- Orders stay when the users are cleared. -/
theorem clear_and_size_of_users :
    let root : Scope := ⟨some "app", none, 60⟩
    let world : Table String String :=
      (Table.empty.set "app:orders:a" "3").set "app:users:a" "1"
    ∃ after, Finishes (TwoPages.call 1) (clear · (root.namespaced "users")) world (.ok (), after) ∧
      after.find? "app:users:a" = none ∧ after.find? "app:orders:a" = some "3" := by
  intro root world
  have hroot : ∀ s ∈ root.keyPrefix, Plain s := by
    rintro s ⟨⟩
    simp [Plain, Registry.isGlobChar]
  have hnames : Registry.validate ["users", "orders"] = .ok () := rfl
  have hmem : "users" ∈ ["users", "orders"] := List.mem_cons_self
  have hne : "users" ≠ "orders" := by decide
  obtain ⟨⟨after, hclear, hafter⟩, -, -⟩ :=
    clear_and_size_of_validate (TwoPages.flat 1) hroot hnames hmem hne world
  have hheld := congrFun hafter
  have howned : (root.namespaced "users").Owns "app:users:a" := by decide
  have hother : ¬ (root.namespaced "users").Owns "app:orders:a" := by decide
  refine ⟨after, hclear, ?_, ?_⟩
  · exact (hheld "app:users:a").trans (if_pos howned)
  · exact (hheld "app:orders:a").trans (if_neg hother)

/-- One accepted namespace goes on from another after a colon: its entries are counted and dropped
through the handle of the other. -/
theorem clear_reaches_other_namespace :
    let users := namespaced ⟨none, none, 60⟩ "users"
    let abroad := namespaced ⟨none, none, 60⟩ "users:eu"
    Registry.validate ["users", "users:eu"] = .ok () ∧ ∃ world after,
      Finishes (TwoPages.call 1) (put · abroad "k" "1") Table.empty (.ok (), world) ∧
      Finishes (TwoPages.call 1) (size · users) world (.ok 1, world) ∧
      Finishes (TwoPages.call 1) (clear · users) world (.ok (), after) ∧
      Finishes (TwoPages.call 1) (get · abroad "k") after (.ok none, after) := by
  intro users abroad
  let world : Table String String := Table.empty.set "users:eu:k" "1"
  have hput : Finishes (TwoPages.call 1) (put · abroad "k" "1") Table.empty (.ok (), world) :=
    Finishes.of_forall fun _ => rfl
  have hsize : Finishes (TwoPages.call 1) (size · users) world (.ok 1, world) := by
    refine ⟨2, fun patience hp => ?_⟩
    obtain ⟨n, rfl⟩ := Nat.exists_eq_add_of_le' hp
    rfl
  have hplain : Plain users.stem := by
    simp [Plain, users, stem_namespaced, Registry.isGlobChar]
  obtain ⟨after, hclear, hafter⟩ :=
    does_clear_owned (TwoPages.flat 1) (isScoped_namespaced _ "users") hplain world
  have howned : users.Owns (abroad.keyOf "k") := by decide
  have hgone : after.find? (abroad.keyOf "k") = none :=
    (congrFun hafter (abroad.keyOf "k")).trans (if_pos howned)
  have hreply : TwoPages.call 1 ["GET", abroad.keyOf "k"] after = (.ok .nil, after) := by
    simp only [TwoPages.call, hgone, Option.elim]
  have hnil : Reply.nil.text? = .ok none := rfl
  exact ⟨rfl, world, after, hput, hsize, hclear, finishes_ask hreply hnil (.redisGet "k")⟩

end Scope
end Redis
end ResultCache
