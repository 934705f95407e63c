/-!
# Sixty-four-bit words

Which integers a word holds: the word that denotes an integer is found exactly if there is one.
-/

namespace ResultCache.Word

/-- The signed word that denotes an integer. -/
def signed? (n : Int) : Option Int64 :=
  if Int64.minValue.toInt ≤ n ∧ n ≤ Int64.maxValue.toInt then some (Int64.ofInt n) else none

/-- The unsigned word that denotes a natural number. -/
def unsigned? (n : Nat) : Option UInt64 :=
  if n < UInt64.size then some (UInt64.ofNat n) else none

theorem signed?_eq_some_iff {n : Int} {w : Int64} : signed? n = some w ↔ w.toInt = n := by
  unfold signed?
  split
  · next h =>
    rw [Option.some.injEq]
    constructor
    · rintro rfl
      rw [Int64.toInt_minValue, Int64.toInt_maxValue] at h
      exact Int64.toInt_ofInt_of_le h.1 (by omega)
    · rintro rfl
      exact Int64.ofInt_toInt w
  · next h =>
    simp only [reduceCtorEq, false_iff]
    rintro rfl
    exact h ⟨Int64.le_iff_toInt_le.1 (Int64.minValue_le w),
      Int64.le_iff_toInt_le.1 (Int64.le_maxValue w)⟩

theorem unsigned?_eq_some_iff {n : Nat} {w : UInt64} : unsigned? n = some w ↔ w.toNat = n := by
  unfold unsigned?
  split
  · next h =>
    rw [Option.some.injEq]
    constructor
    · rintro rfl
      exact UInt64.toNat_ofNat_of_lt h
    · rintro rfl
      exact UInt64.ofNat_toNat
  · next h =>
    simp only [reduceCtorEq, false_iff]
    rintro rfl
    exact h w.toNat_lt_size

/-- Unsigned words that differ have signed words that differ. -/
theorem toInt64_inj {a b : UInt64} : a.toInt64 = b.toInt64 ↔ a = b := by
  constructor
  · intro h
    rw [← UInt64.toUInt64_toInt64 a, h, UInt64.toUInt64_toInt64]
  · rintro rfl
    rfl

end ResultCache.Word
