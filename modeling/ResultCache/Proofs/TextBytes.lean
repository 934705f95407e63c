import Mathlib.Algebra.Group.Nat.Defs
import Mathlib.Data.List.Infix
import Mathlib.Order.Defs.LinearOrder
import ResultCache.Bytes

/-! # The bytes of texts -/

namespace ResultCache.Bytes

/-- The bytes that follow the first one of a character: its last digits to the base 64. -/
def trailing (m : Nat) : Nat → Bytes
  | 0 => []
  | k + 1 => UInt8.ofNat (m / 64 ^ k % 64 + 128) :: trailing m k

private theorem le_of_mem_trailing {m k : Nat} {b : UInt8} (h : b ∈ trailing m k) :
    128 ≤ b.toNat := by
  induction k with
  | zero => cases h
  | succ k ih =>
    rcases List.mem_cons.mp h with hb | hrest
    · rw [hb, UInt8.toNat_ofNat']
      omega
    · exact ih hrest

theorem utf8EncodeChar_eq (c : Char) : ∃ lead k,
    String.utf8EncodeChar c = UInt8.ofNat lead :: trailing c.toNat k ∧
      (k = 0 ∧ lead = c.toNat ∧ c.toNat < 128 ∨
        k = 1 ∧ lead = c.toNat / 64 + 192 ∧ 128 ≤ c.toNat ∧ c.toNat < 2048 ∨
        k = 2 ∧ lead = c.toNat / 4096 + 224 ∧ 2048 ≤ c.toNat ∧ c.toNat < 65536 ∨
        k = 3 ∧ lead = c.toNat / 262144 + 240 ∧ 65536 ≤ c.toNat ∧ c.toNat < 1114112) := by
  have hmax : c.toNat < 1114112 := by
    have hvalid : c.toNat < 55296 ∨ 57343 < c.toNat ∧ c.toNat < 1114112 := c.valid
    omega
  have hval : c.val.toNat = c.toNat := rfl
  simp only [String.utf8EncodeChar, hval]
  split
  · exact ⟨c.toNat, 0, rfl, by omega⟩
  · split
    · refine ⟨c.toNat / 64 + 192, 1, ?_, by omega⟩
      rw [Nat.mod_eq_of_lt (by omega : c.toNat / 64 < 32)]
      simp [trailing]
    · split
      · refine ⟨c.toNat / 4096 + 224, 2, ?_, by omega⟩
        rw [Nat.mod_eq_of_lt (by omega : c.toNat / 4096 < 16)]
        simp [trailing]
      · refine ⟨c.toNat / 262144 + 240, 3, ?_, by omega⟩
        rw [Nat.mod_eq_of_lt (by omega : c.toNat / 262144 < 8)]
        simp [trailing]

private theorem toNat_eq_of_mem_utf8EncodeChar {c : Char} {b : UInt8}
    (h : b ∈ String.utf8EncodeChar c) (hb : b < 128) : c.toNat = b.toNat := by
  obtain ⟨lead, k, hc, hlead⟩ := utf8EncodeChar_eq c
  replace hb : b.toNat < 128 := UInt8.lt_iff_toNat_lt.mp hb
  rw [hc] at h
  rcases List.mem_cons.mp h with hfirst | hrest
  · rw [hfirst, UInt8.toNat_ofNat'] at hb ⊢
    omega
  · have hle := le_of_mem_trailing hrest
    omega

private theorem ofText_eq_flatMap (s : String) :
    ofText s = s.toList.flatMap String.utf8EncodeChar := by
  rw [ofText, ← String.utf8Encode_toList, List.utf8Encode, List.data_toByteArray]

theorem ofText_append (s t : String) : ofText (s ++ t) = ofText s ++ ofText t := by
  simp only [ofText_eq_flatMap, String.toList_append, List.flatMap_append]

theorem mem_of_mem_ofText {s : String} {b : UInt8} {c : Char} (h : b ∈ ofText s) (hb : b < 128)
    (hc : c.toNat = b.toNat) : c ∈ s.toList := by
  rw [ofText_eq_flatMap] at h
  obtain ⟨d, hd, hbd⟩ := List.mem_flatMap.mp h
  have hchar : c = d := Char.toNat_inj.mp (hc.trans (toNat_eq_of_mem_utf8EncodeChar hbd hb).symm)
  rwa [hchar]

theorem ofText_prefix_iff {s t : String} : ofText s <+: ofText t ↔ ∃ rest, t = s ++ rest := by
  constructor
  · rintro ⟨rest, h⟩
    have hbytes : s.toByteArray ++ rest.toByteArray = t.toByteArray := by
      apply ByteArray.ext
      rw [ByteArray.data_append, List.data_toByteArray]
      exact Array.toList_inj.mp (by simpa [ofText] using h)
    rw [← String.utf8Encode_toList, ← String.utf8Encode_toList (b := t)] at hbytes
    obtain ⟨chars, hchars⟩ := List.isPrefix_of_utf8Encode_append_eq_utf8Encode _ hbytes
    refine ⟨String.ofList chars, String.toList_inj.mp ?_⟩
    rw [String.toList_append, String.toList_ofList, hchars]
  · rintro ⟨rest, rfl⟩
    rw [ofText_append]
    exact List.prefix_append _ _

private theorem cons_lt_cons_of_lt {a b : Nat} (h : a < b) (hb : b < 256) (xs ys : Bytes) :
    UInt8.ofNat a :: xs < UInt8.ofNat b :: ys := by
  apply List.cons_lt_cons_iff.mpr
  left
  rw [UInt8.lt_iff_toNat_lt, UInt8.toNat_ofNat', UInt8.toNat_ofNat']
  omega

private theorem cons_lt_cons_of_eq {a b : Nat} (h : a = b) {xs ys : Bytes} (hlt : xs < ys) :
    UInt8.ofNat a :: xs < UInt8.ofNat b :: ys := by
  apply List.cons_lt_cons_iff.mpr
  exact .inr ⟨congrArg UInt8.ofNat h, hlt⟩

private theorem trailing_append_lt {m n k : Nat} (hlt : m < n) (hhigh : m / 64 ^ k = n / 64 ^ k)
    (xs ys : Bytes) : trailing m k ++ xs < trailing n k ++ ys := by
  induction k with
  | zero =>
    rw [Nat.pow_zero, Nat.div_one, Nat.div_one] at hhigh
    omega
  | succ k ih =>
    rw [Nat.pow_succ, ← Nat.div_div_eq_div_mul, ← Nat.div_div_eq_div_mul] at hhigh
    have hle : m / 64 ^ k ≤ n / 64 ^ k := Nat.div_le_div_right hlt.le
    by_cases hdigit : m / 64 ^ k = n / 64 ^ k
    · exact cons_lt_cons_of_eq (by rw [hdigit]) (ih hdigit)
    · exact cons_lt_cons_of_lt (by omega) (by omega) _ _

private theorem utf8EncodeChar_append_lt {c d : Char} (h : c < d) (xs ys : Bytes) :
    String.utf8EncodeChar c ++ xs < String.utf8EncodeChar d ++ ys := by
  have hlt : c.toNat < d.toNat := h
  obtain ⟨lead, k, hc, hlead⟩ := utf8EncodeChar_eq c
  obtain ⟨other, j, hd, hother⟩ := utf8EncodeChar_eq d
  rw [hc, hd, List.cons_append, List.cons_append]
  by_cases hfirst : lead = other
  · apply cons_lt_cons_of_eq hfirst
    have hsame : k = j := by omega
    subst hsame
    apply trailing_append_lt hlt
    rcases hlead with ⟨rfl, h⟩ | ⟨rfl, h⟩ | ⟨rfl, h⟩ | ⟨rfl, h⟩ <;> omega
  · exact cons_lt_cons_of_lt (by omega) (by omega) _ _

private theorem flatMap_utf8EncodeChar_lt {xs ys : List Char} (h : xs < ys) :
    xs.flatMap String.utf8EncodeChar < ys.flatMap String.utf8EncodeChar := by
  induction xs generalizing ys with
  | nil =>
    cases ys with
    | nil => cases h
    | cons d ys =>
      obtain ⟨lead, k, hd, -⟩ := utf8EncodeChar_eq d
      rw [List.flatMap_nil, List.flatMap_cons, hd]
      exact List.Lex.nil
  | cons c xs ih =>
    cases ys with
    | nil => cases h
    | cons d ys =>
      rw [List.flatMap_cons, List.flatMap_cons]
      rcases List.cons_lt_cons_iff.mp h with hlt | ⟨rfl, hrest⟩
      · exact utf8EncodeChar_append_lt hlt _ _
      · exact List.append_left_lt (ih hrest)

/-- The order of texts is that of their bytes. -/
theorem ofText_lt_iff {s t : String} : ofText s < ofText t ↔ s < t := by
  have hmono {s t : String} (h : s < t) : ofText s < ofText t := by
    rw [ofText_eq_flatMap, ofText_eq_flatMap]
    exact flatMap_utf8EncodeChar_lt (String.lt_iff.mp h)
  constructor
  · intro hbytes
    rcases Std.lt_trichotomy s t with hlt | heq | hgt
    · exact hlt
    · rw [heq] at hbytes
      exact absurd hbytes (List.lt_irrefl _)
    · exact absurd (hmono hgt) (List.lt_asymm hbytes)
  · exact hmono

end ResultCache.Bytes
