import Mathlib.Algebra.BigOperators.Fin
import Mathlib.Data.List.Forall2
import ResultCache.Proofs.KeyHashes
import ResultCache.Proofs.LookupKeys

/-!
# Keys that grow step by step

Hash, checksum and count have a closed form in the components.
-/

namespace ResultCache.Key

/-- What is appended to a key at once. -/
inductive Extension where
  | one (component : Value)
  | several (components : List Value)

def Extension.components : Extension → List Value
  | one component => [component]
  | several components => components

def appended (steps : List Extension) : List Value := steps.flatMap Extension.components

def extend (key : Key) : Extension → Key
  | .one component => key.update component
  | .several components => key.updateAll components

/-- The key that begins without components and is extended step by step. -/
def extended (steps : List Extension) : Key := steps.foldl extend empty

def Reachable (key : Key) : Prop := ∃ steps, key = extended steps

theorem extend_ofComponents (xs : List Value) (step : Extension) :
    (ofComponents xs).extend step = ofComponents (xs ++ step.components) := by
  cases step with
  | one component => exact (ofComponents_append_singleton xs component).symm
  | several components => exact (updateAll_append empty xs components).symm

/-- How the components were divided among the steps has no part in the key. -/
theorem extended_eq_ofComponents (steps : List Extension) :
    extended steps = ofComponents (appended steps) := by
  induction steps using List.reverseRecOn with
  | nil => rfl
  | append_singleton steps step ih =>
    have happended : appended (steps ++ [step]) = appended steps ++ step.components := by
      simp [appended]
    rw [happended, ← extend_ofComponents, ← ih, extended, List.foldl_append]
    rfl

theorem reachable_ofComponents (xs : List Value) : (ofComponents xs).Reachable :=
  ⟨[.several xs], rfl⟩

theorem Reachable.eq_ofComponents {key : Key} (h : key.Reachable) :
    key = ofComponents key.components := by
  obtain ⟨steps, rfl⟩ := h
  rw [extended_eq_ofComponents, components_ofComponents]

theorem Reachable.components_eq_iff {key other : Key} (hk : key.Reachable) (ho : other.Reachable) :
    key.components = other.components ↔ key = other := by
  constructor
  · intro h
    rw [hk.eq_ofComponents, ho.eq_ofComponents, h]
  · exact congrArg components

open scoped UInt64.CommRing

private theorem toNat_of_eq_natCast {w : UInt64} {n : Nat} (h : w = (n : UInt64)) :
    w.toNat = n % 2 ^ 64 := h ▸ UInt64.toNat_ofNat'

private theorem natCast_toNat (w : UInt64) : ((w.toNat : Nat) : UInt64) = w := UInt64.ofNat_toNat

theorem toNat_checksum_ofComponents (xs : List Value) :
    (ofComponents xs).checksum.toNat =
      (xs.map fun component => component.componentHash.toNat).sum % 2 ^ 64 := by
  refine toNat_of_eq_natCast ?_
  rw [checksum_ofComponents, Nat.cast_list_sum, List.map_map]
  simp only [Function.comp_def, natCast_toNat]

theorem toNat_hash_ofComponents (xs : List Value) :
    (ofComponents xs).hash.toNat =
      (17 * 37 ^ xs.length + ∑ i : Fin xs.length,
        (i + 1) * 37 ^ (xs.length - (i + 1)) * (xs.get i).componentHash.toNat) % 2 ^ 64 := by
  refine toNat_of_eq_natCast ?_
  have hseed : multiplier ^ xs.length * seed = ((17 * 37 ^ xs.length : Nat) : UInt64) := by
    push_cast
    exact mul_comm _ _
  have hplace : ∀ i : Fin xs.length, weight xs.length i * hashAt xs i =
      (((i + 1) * 37 ^ (xs.length - (i + 1)) * (xs.get i).componentHash.toNat : Nat) : UInt64) := by
    intro i
    rw [hashAt_of_fin, weight]
    push_cast
    rw [natCast_toNat]
    change multiplier ^ _ * ((i + 1 : Nat) : UInt64) * _ = _
    push_cast
    rw [mul_comm (multiplier ^ _)]
    rfl
  rw [hash_ofComponents, Finset.sum_range, hseed, Finset.sum_congr rfl fun i _ => hplace i]
  push_cast
  rfl

private theorem forall₂_same_iff {xs ys : List Value} :
    List.Forall₂ (fun x y => x.same y = true) xs ys ↔ xs = ys := by
  simp only [Value.same_iff, List.forall₂_eq_eq_eq]

/-- After any steps a key has the components that were appended, in order, their number, the sum of
their hashes, and the sum of their hashes weighted by the positions, both in 64 bits. So keys that
were built by any steps are equal exactly if their components are. -/
theorem extended_closed_form (steps : List Extension) :
    let key := extended steps
    let xs := appended steps
    key.components = xs ∧ key.count = xs.length ∧
    key.checksum.toNat =
      (xs.map fun component => component.componentHash.toNat).sum % 2 ^ 64 ∧
    key.hash.toNat = (17 * 37 ^ xs.length + ∑ i : Fin xs.length,
      (i + 1) * 37 ^ (xs.length - (i + 1)) * (xs.get i).componentHash.toNat) % 2 ^ 64 ∧
    ∀ other : List Extension,
      (key = extended other ↔ List.Forall₂ (fun x y => x.same y = true) xs (appended other)) ∧
      (List.Forall₂ (fun x y => x.same y = true) xs (appended other) →
        key.hash = (extended other).hash ∧ key.render = (extended other).render ∧
          key.storageKey = (extended other).storageKey) := by
  intro key xs
  have hkey : key = ofComponents xs := extended_eq_ofComponents steps
  rw [hkey]
  refine ⟨components_ofComponents xs, count_ofComponents xs, toNat_checksum_ofComponents xs,
    toNat_hash_ofComponents xs, fun other => ?_⟩
  rw [extended_eq_ofComponents other, forall₂_same_iff, ofComponents_inj]
  refine ⟨Iff.rfl, fun h => ?_⟩
  rw [h]
  exact ⟨rfl, rfl, rfl⟩

/-- Four components in two divisions, one of which appends nothing in between. -/
theorem extended_closed_form_of_two_divisions :
    let steps : List Extension := [.one (.text "find"), .several [.null, .int 1], .one (.bool true)]
    let other : List Extension :=
      [.several [.text "find", .null], .several [], .several [.int 1, .bool true]]
    extended steps = extended other ∧ (extended steps).count = 4 ∧
      (extended steps).hash = (extended other).hash ∧
      (extended steps).render = (extended other).render ∧
      (extended steps).storageKey = (extended other).storageKey := by
  intro steps other
  have happended : appended steps = appended other := rfl
  have heach := forall₂_same_iff.mpr happended
  obtain ⟨-, hcount, -, -, hothers⟩ := extended_closed_form steps
  obtain ⟨hkey, hsame⟩ := hothers other
  exact ⟨hkey.mpr heach, hcount, hsame heach⟩

end ResultCache.Key
