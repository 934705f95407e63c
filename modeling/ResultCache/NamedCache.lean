/-!
# Named caches

A shared store under a stable name. The name alone is the identity: two handles of one name stand
for the same logical cache, whichever stores they lead to.
-/

namespace ResultCache

/-- A store of the handle type `σ` under a name. -/
structure NamedCache (σ : Type) where
  id : String
  store : σ

namespace NamedCache

instance {σ : Type} : BEq (NamedCache σ) := ⟨fun a b => a.id == b.id⟩

instance {σ : Type} : Hashable (NamedCache σ) := ⟨fun cache => hash cache.id⟩

@[simp] theorem beq_iff {σ : Type} {a b : NamedCache σ} : (a == b) = true ↔ a.id = b.id := by
  change (a.id == b.id) = true ↔ _
  exact beq_iff_eq

end NamedCache
end ResultCache
