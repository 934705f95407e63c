import Mathlib.Algebra.BigOperators.Group.Finset.Basic
import Mathlib.Algebra.BigOperators.Intervals
import Mathlib.Data.Nat.Factorization.Basic
import Mathlib.Data.UInt
import Mathlib.RingTheory.Nilpotent.Basic
import Mathlib.Tactic.LinearCombination
import Mathlib.Tactic.Ring
import ResultCache.Key
import ResultCache.Proofs.Separators
import ResultCache.Text.Number

/-!
# What the hash of a key tells

The running hash is a sum in which every component counts with its position.
-/

namespace ResultCache

open scoped UInt64.CommRing

/-! ## Factors that can be cancelled -/

namespace Word

private theorem isNilpotent_two : IsNilpotent (2 : UInt64) := ⟨64, by decide +kernel⟩

private theorem isUnit_one_add_two_mul (x : UInt64) : IsUnit (1 + 2 * x) :=
  ((Commute.all 2 x).isNilpotent_mul_right isNilpotent_two).isUnit_one_add

private theorem isUnit_ofNat {n : Nat} (h : Odd n) : IsUnit (UInt64.ofNat n) := by
  obtain ⟨r, rfl⟩ := h
  have hcast : ((2 * r + 1 : Nat) : UInt64) = 1 + 2 * (r : UInt64) := by
    push_cast
    ring
  change IsUnit ((2 * r + 1 : Nat) : UInt64)
  rw [hcast]
  exact isUnit_one_add_two_mul r

end Word

namespace Key

private theorem multiplier_eq : multiplier = 1 + 4 * 9 := rfl

private theorem isUnit_multiplier : IsUnit multiplier := Word.isUnit_one_add_two_mul 18

private theorem multiplier_pow (m : Nat) : ∃ q, multiplier ^ m = 1 + 4 * q := by
  induction m with
  | zero => exact ⟨0, by simp⟩
  | succ m ih =>
    obtain ⟨q, hq⟩ := ih
    exact ⟨q + 9 + 36 * q, by rw [pow_succ, hq, multiplier_eq]; ring⟩

private theorem multiplier_pow_two_pow_mul (k m : Nat) :
    ∃ q, multiplier ^ (2 ^ k * m) = 1 + 2 ^ (k + 2) * q := by
  induction k with
  | zero =>
    obtain ⟨q, hq⟩ := multiplier_pow m
    exact ⟨q, by rw [pow_zero, one_mul, hq]; ring⟩
  | succ k ih =>
    obtain ⟨q, hq⟩ := ih
    have hexponent : 2 ^ (k + 1) * m = 2 ^ k * m + 2 ^ k * m := by ring
    refine ⟨q + 2 ^ (k + 1) * q * q, ?_⟩
    rw [hexponent, pow_add, hq]
    ring

private theorem weight_sub_weight {distance : Nat} (h : distance ≠ 0) (position : Nat) :
    ∃ u : UInt64, IsUnit u ∧ multiplier ^ distance * UInt64.ofNat position -
      UInt64.ofNat (position + distance) = UInt64.ofNat distance * u := by
  -- Both sides have the factors of two of the distance, and what they have beyond is odd.
  obtain ⟨k, m, hm, rfl⟩ := Nat.exists_eq_two_pow_mul_odd h
  obtain ⟨q, hq⟩ := multiplier_pow_two_pow_mul k m
  obtain ⟨inverse, hinverse⟩ := (Word.isUnit_ofNat hm).exists_right_inv
  obtain ⟨r, rfl⟩ := hm
  have hodd : IsUnit (1 + 2 * ((r : UInt64) - 2 * q * position)) :=
    Word.isUnit_one_add_two_mul _
  have hunit : IsUnit inverse := IsUnit.of_mul_eq_one_right _ hinverse
  refine ⟨inverse * -(1 + 2 * ((r : UInt64) - 2 * q * position)), hunit.mul hodd.neg, ?_⟩
  change ((2 * r + 1 : Nat) : UInt64) * inverse = 1 at hinverse
  change multiplier ^ (2 ^ k * (2 * r + 1)) * (position : UInt64) -
    ((position + 2 ^ k * (2 * r + 1) : Nat) : UInt64) = ((2 ^ k * (2 * r + 1) : Nat) : UInt64) * _
  rw [hq]
  push_cast at hinverse ⊢
  linear_combination (2 ^ k * (1 + 2 * ((r : UInt64) - 2 * q * position))) * hinverse

/-! ## The sums behind hash and checksum -/

/-- The hash of the component at a place, counted from zero. -/
def hashAt (components : List Value) (place : Nat) : UInt64 :=
  (components[place]?.map Value.componentHash).getD 0

/-- How much the hash of the component at a place counts among so many components. -/
def weight (count place : Nat) : UInt64 :=
  multiplier ^ (count - (place + 1)) * UInt64.ofNat (place + 1)

theorem ofComponents_append_singleton (xs : List Value) (x : Value) :
    ofComponents (xs ++ [x]) = (ofComponents xs).update x := updateAll_append empty xs [x]

@[simp] theorem count_ofComponents (xs : List Value) : (ofComponents xs).count = xs.length := by
  induction xs using List.reverseRecOn with
  | nil => rfl
  | append_singleton xs x ih =>
    rw [ofComponents_append_singleton, count_update, ih, List.length_append, List.length_singleton]

theorem checksum_ofComponents (xs : List Value) :
    (ofComponents xs).checksum = (xs.map Value.componentHash).sum := by
  induction xs using List.reverseRecOn with
  | nil => rfl
  | append_singleton xs x ih =>
    rw [ofComponents_append_singleton, List.map_append, List.sum_append, ← ih]
    simp [update]

private theorem weight_succ_of_lt {count place : Nat} (h : place < count) :
    weight (count + 1) place = multiplier * weight count place := by
  have hexponent : count + 1 - (place + 1) = count - (place + 1) + 1 := by omega
  rw [weight, weight, hexponent, pow_succ]
  ring

theorem hash_ofComponents (xs : List Value) :
    (ofComponents xs).hash = multiplier ^ xs.length * seed +
      ∑ place ∈ Finset.range xs.length, weight xs.length place * hashAt xs place := by
  induction xs using List.reverseRecOn with
  | nil => rfl
  | append_singleton xs x ih =>
    have hlast : hashAt (xs ++ [x]) xs.length = x.componentHash := by simp [hashAt]
    have hbefore : ∀ place ∈ Finset.range xs.length,
        weight (xs.length + 1) place * hashAt (xs ++ [x]) place =
          multiplier * (weight xs.length place * hashAt xs place) := by
      intro place hplace
      have hlt := Finset.mem_range.mp hplace
      have hsame : hashAt (xs ++ [x]) place = hashAt xs place := by
        rw [hashAt, hashAt, List.getElem?_append_left hlt]
      rw [weight_succ_of_lt hlt, hsame]
      ring
    rw [ofComponents_append_singleton, List.length_append, List.length_singleton,
      Finset.sum_range_succ, Finset.sum_congr rfl hbefore, ← Finset.mul_sum, hlast]
    change multiplier * (ofComponents xs).hash +
      x.componentHash * UInt64.ofNat ((ofComponents xs).count + 1) = _
    rw [ih, count_ofComponents, weight, Nat.sub_self]
    ring

/-! ## Components exchanged -/

def exchange (xs : List Value) (i j : Fin xs.length) : List Value := (xs.set i xs[j]).set j xs[i]

private theorem exchange_perm (xs : List Value) (i j : Fin xs.length) : (exchange xs i j).Perm xs :=
  List.set_set_perm i.isLt j.isLt

theorem hashAt_of_fin (xs : List Value) (i : Fin xs.length) :
    hashAt xs i = xs[i].componentHash := by
  simp [hashAt]

private theorem hashAt_exchange (xs : List Value) (i j : Fin xs.length) (place : Nat) :
    hashAt (exchange xs i j) place =
      if place = j then hashAt xs i else if place = i then hashAt xs j else hashAt xs place := by
  rw [hashAt_of_fin, hashAt_of_fin, hashAt, exchange, List.getElem?_set, List.getElem?_set]
  by_cases hj : place = j
  · subst hj
    simp
  · by_cases hi : place = i
    · subst hi
      simp [hj, Ne.symm hj]
    · simp [hi, hj, Ne.symm hi, Ne.symm hj, hashAt]

private theorem length_exchange (xs : List Value) (i j : Fin xs.length) :
    (exchange xs i j).length = xs.length := (exchange_perm xs i j).length_eq

private theorem hash_sub_hash_exchange (xs : List Value) {i j : Fin xs.length} (h : i < j) :
    (ofComponents xs).hash - (ofComponents (exchange xs i j)).hash =
      (weight xs.length i - weight xs.length j) * (hashAt xs i - hashAt xs j) := by
  have hne : (i : Nat) ≠ j := Nat.ne_of_lt h
  have hsum : ∑ place ∈ Finset.range xs.length,
      weight xs.length place * (hashAt xs place - hashAt (exchange xs i j) place) =
        weight xs.length i * (hashAt xs i - hashAt xs j) +
          weight xs.length j * (hashAt xs j - hashAt xs i) := by
    rw [Finset.sum_eq_add_of_mem (i : Nat) j (Finset.mem_range.mpr i.isLt)
      (Finset.mem_range.mpr j.isLt) hne]
    · rw [hashAt_exchange, hashAt_exchange, if_neg hne, if_pos rfl, if_pos rfl]
    · intro place _ hplace
      rw [hashAt_exchange, if_neg hplace.2, if_neg hplace.1, sub_self, mul_zero]
  have hdistribute : ∑ place ∈ Finset.range xs.length,
      weight xs.length place * (hashAt xs place - hashAt (exchange xs i j) place) =
        ∑ place ∈ Finset.range xs.length, weight xs.length place * hashAt xs place -
          ∑ place ∈ Finset.range xs.length,
            weight xs.length place * hashAt (exchange xs i j) place := by
    rw [← Finset.sum_sub_distrib]
    exact Finset.sum_congr rfl fun place _ => mul_sub _ _ _
  rw [hash_ofComponents, hash_ofComponents, length_exchange, add_sub_add_left_eq_sub,
    ← hdistribute, hsum]
  ring

private theorem weight_sub_weight_of_lt {count i j : Nat} (hij : i < j) (hj : j < count) :
    ∃ u : UInt64, IsUnit u ∧ weight count i - weight count j = UInt64.ofNat (j - i) * u := by
  obtain ⟨u, hu, hdistance⟩ := weight_sub_weight (Nat.sub_ne_zero_of_lt hij) (i + 1)
  have hposition : i + 1 + (j - i) = j + 1 := by omega
  have hexponent : count - (i + 1) = count - (j + 1) + (j - i) := by omega
  rw [hposition] at hdistance
  refine ⟨multiplier ^ (count - (j + 1)) * u, (isUnit_multiplier.pow _).mul hu, ?_⟩
  rw [weight, weight, hexponent, pow_add]
  linear_combination multiplier ^ (count - (j + 1)) * hdistance

theorem hash_exchange_eq_iff (xs : List Value) {i j : Fin xs.length} (h : i < j) :
    (ofComponents (exchange xs i j)).hash = (ofComponents xs).hash ↔
      UInt64.ofNat (j - i) * (xs[i].componentHash - xs[j].componentHash) = 0 := by
  obtain ⟨u, hu, hweights⟩ := weight_sub_weight_of_lt h j.isLt
  rw [eq_comm, ← sub_eq_zero, hash_sub_hash_exchange xs h, hweights, hashAt_of_fin, hashAt_of_fin,
    mul_comm (UInt64.ofNat _) u, mul_assoc, hu.mul_right_eq_zero]

/-! ## The hash in the text of a key -/

def componentsText (xs : List Value) : String :=
  String.join (xs.map fun component => ":" ++ component.render)

private theorem componentsText_cons (x : Value) (xs : List Value) :
    componentsText (x :: xs) = ":" ++ x.render ++ componentsText xs := by
  rw [componentsText, componentsText, List.map_cons, String.join_cons]

theorem toList_componentsText_cons (x : Value) (xs : List Value) :
    (componentsText (x :: xs)).toList = ':' :: (x.render.toList ++ (componentsText xs).toList) := by
  rw [componentsText_cons, String.append_assoc, String.toList_append, String.toList_append]
  rfl

private theorem foldl_render (text : String) (xs : List Value) :
    xs.foldl (fun text component => text ++ ":" ++ component.render) text =
      text ++ componentsText xs := by
  induction xs generalizing text with
  | nil => simp [componentsText]
  | cons x xs ih => rw [List.foldl_cons, ih, componentsText_cons]; simp only [String.append_assoc]

private theorem toList_render (key : Key) : key.render.toList =
    (toString key.hash.toNat).toList ++ ':' :: ((toString key.checksum.toNat).toList ++
      (componentsText key.components).toList) := by
  rw [render, foldl_render]
  simp only [String.toList_append, List.append_assoc]
  rfl

private theorem head_componentsText (xs : List Value) :
    ∀ c, (componentsText xs).toList.head? = some c → c = ':' := by
  intro c hc
  cases xs with
  | nil => cases hc
  | cons x xs =>
    rw [toList_componentsText_cons] at hc
    cases hc
    rfl

private theorem colon_not_mem_toString (w : UInt64) : ':' ∉ (toString w.toNat).toList := by
  intro hc
  have hlist : (toString w.toNat).toList = Nat.toDigits 10 w.toNat := Nat.toList_repr
  have hdigit := Nat.isDigit_of_mem_toDigits (by decide) (by decide) (hlist ▸ hc)
  exact absurd hdigit (by decide)

private theorem toList_toString_inj {v w : UInt64} :
    (toString v.toNat).toList = (toString w.toNat).toList ↔ v = w := by
  rw [String.toList_inj]
  constructor
  · intro h
    have hread := congrArg Text.uint64? h
    rw [Text.uint64?_toString, Text.uint64?_toString] at hread
    exact Option.some.inj hread
  · rintro rfl
    rfl

theorem render_inj {key other : Key} : key.render = other.render ↔ key.hash = other.hash ∧
    key.checksum = other.checksum ∧
      componentsText key.components = componentsText other.components := by
  have hcolon : ∀ (rest : List Char) c, (':' :: rest).head? = some c → c = ':' := by
    rintro rest c ⟨⟩
    rfl
  rw [← String.toList_inj, toList_render, toList_render,
    append_inj_of_not_mem (colon_not_mem_toString _) (colon_not_mem_toString _) (hcolon _)
      (hcolon _), toList_toString_inj, List.cons_inj_right,
    append_inj_of_not_mem (colon_not_mem_toString _) (colon_not_mem_toString _)
      (head_componentsText _) (head_componentsText _), toList_toString_inj, String.toList_inj]

/-- Exchanging two components leaves checksum and count of a key. It leaves the hash exactly if the
distance of the two, times the difference of their hashes, is zero in 64 bits. So at an odd
distance, as between neighbours, it changes the hash and with it the text that the storage name is
the digest of, unless the two have one hash. -/
theorem ofComponents_exchange (xs : List Value) {i j : Fin xs.length} (h : i < j) :
    let key := ofComponents xs
    let other := ofComponents (exchange xs i j)
    other.checksum = key.checksum ∧ other.count = key.count ∧
    (other.hash = key.hash ↔
      UInt64.ofNat (j - i) * (xs[i].componentHash - xs[j].componentHash) = 0) ∧
    (Odd ((j : Nat) - i) → xs[i].componentHash ≠ xs[j].componentHash →
      other.hash ≠ key.hash ∧ other.render ≠ key.render ∧
        Bytes.ofText other.render ≠ Bytes.ofText key.render) := by
  intro key other
  have hhash := hash_exchange_eq_iff xs h
  refine ⟨?_, ?_, hhash, fun hodd hne => ?_⟩
  · rw [checksum_ofComponents, checksum_ofComponents]
    exact ((exchange_perm xs i j).map _).sum_eq
  · rw [count_ofComponents, count_ofComponents, length_exchange]
  · have hother : other.hash ≠ key.hash := by
      rw [Ne, hhash, (Word.isUnit_ofNat hodd).mul_right_eq_zero, sub_eq_zero]
      exact hne
    refine ⟨hother, fun hrender => hother (render_inj.mp hrender).1, fun hbytes => ?_⟩
    exact hother (render_inj.mp (Bytes.ofText_inj.mp hbytes)).1

/-- A null and a truth value that change places. -/
theorem ofComponents_exchange_of_neighbours :
    let xs : List Value := [.null, .bool true]
    let i : Fin xs.length := ⟨0, by decide⟩
    let j : Fin xs.length := ⟨1, by decide⟩
    i < j ∧ exchange xs i j = [.bool true, .null] ∧
      (ofComponents [.bool true, .null]).hash ≠ (ofComponents xs).hash ∧
      (ofComponents [.bool true, .null]).render ≠ (ofComponents xs).render := by
  intro xs i j
  have hij : i < j := by decide
  have hne : Value.componentHash .null ≠ Value.componentHash (.bool true) := by decide +kernel
  obtain ⟨-, -, -, hodd⟩ := ofComponents_exchange xs hij
  obtain ⟨hhash, hrender, -⟩ := hodd ⟨0, rfl⟩ hne
  exact ⟨hij, rfl, hhash, hrender⟩

end Key
end ResultCache
