import Mathlib.Data.Nat.Digits.Lemmas
import ResultCache.Value.Canonical

/-!
# Canonical bytes are read in one way only

The bytes of a value tell where they end.
-/

namespace ResultCache

namespace Bytes

private theorem ofWord_inj {v w : UInt64} : ofWord v = ofWord w ↔ v = w := by
  constructor
  · intro h
    simp only [ofWord, List.cons.injEq, and_true, ← UInt8.toNat_inj, UInt64.toNat_toUInt8,
      UInt64.toNat_shiftRight, UInt64.toNat_ofNat, Nat.shiftRight_eq_div_pow] at h
    norm_num only at h
    have hv := v.toNat_lt
    have hw := w.toNat_lt
    rw [← UInt64.toNat_inj]
    omega
  · rintro rfl
    rfl

private theorem ofWord_append_inj {v w : UInt64} {s t : Bytes} :
    ofWord v ++ s = ofWord w ++ t ↔ v = w ∧ s = t := by
  rw [← ofWord_inj (v := v)]
  exact ⟨fun h => List.append_inj h rfl, fun h => by rw [h.1, h.2]⟩

private theorem eq_of_ofNat_eq {m n : Nat} (hm : m < UInt64.size) (hn : n < UInt64.size)
    (h : UInt64.ofNat m = UInt64.ofNat n) : m = n := by
  rw [← UInt64.toNat_ofNat_of_lt' hm, h, UInt64.toNat_ofNat_of_lt' hn]

private theorem counted_append_inj {xs ys s t : Bytes} (hx : xs.length < UInt64.size)
    (hy : ys.length < UInt64.size)
    (h : ofWord (UInt64.ofNat xs.length) ++ xs ++ s = ofWord (UInt64.ofNat ys.length) ++ ys ++ t) :
    xs = ys ∧ s = t := by
  rw [List.append_assoc, List.append_assoc, ofWord_append_inj] at h
  exact List.append_inj h.2 (eq_of_ofNat_eq hx hy h.1)

private theorem toNat_shiftLeft_or {b : UInt8} {w : UInt64} (h : w.toNat < 2 ^ 56) :
    ((w <<< 8) ||| b.toUInt64).toNat = b.toNat + 256 * w.toNat := by
  have hb : b.toNat < 2 ^ 8 := b.toNat_lt
  have hshift : w.toNat <<< 8 < 2 ^ 64 := by
    rw [Nat.shiftLeft_eq]
    omega
  rw [UInt64.toNat_or, UInt64.toNat_shiftLeft, UInt8.toNat_toUInt64]
  change (w.toNat <<< 8) % 2 ^ 64 ||| b.toNat = _
  rw [Nat.mod_eq_of_lt hshift, ← Nat.shiftLeft_add_eq_or_of_lt hb, Nat.shiftLeft_eq]
  omega

private theorem toNat_toWord {bytes : Bytes} (h : bytes.length ≤ 8) :
    (toWord bytes).toNat = Nat.ofDigits 256 (bytes.map UInt8.toNat) ∧
      (toWord bytes).toNat < 2 ^ (8 * bytes.length) := by
  induction bytes with
  | nil => exact ⟨rfl, by decide⟩
  | cons b rest ih =>
    rw [List.length_cons] at h
    obtain ⟨hvalue, hlt⟩ := ih (by omega)
    have hb : b.toNat < 2 ^ 8 := b.toNat_lt
    have hfits : (toWord rest).toNat < 2 ^ 56 :=
      hlt.trans_le (Nat.pow_le_pow_right (by decide) (by omega))
    have hcons : (toWord (b :: rest)).toNat = b.toNat + 256 * (toWord rest).toNat :=
      toNat_shiftLeft_or hfits
    rw [hcons]
    constructor
    · rw [hvalue, List.map_cons, Nat.ofDigits_cons]
    · rw [List.length_cons, Nat.mul_add, Nat.pow_add]
      omega

private theorem toWord_inj {xs ys : Bytes} (hx : xs.length = 8) (hy : ys.length = 8) :
    toWord xs = toWord ys ↔ xs = ys := by
  constructor
  · intro h
    have hdigits :
        Nat.ofDigits 256 (xs.map UInt8.toNat) = Nat.ofDigits 256 (ys.map UInt8.toNat) := by
      rw [← (toNat_toWord hx.le).1, h, (toNat_toWord hy.le).1]
    have small (bytes : Bytes) : ∀ d ∈ bytes.map UInt8.toNat, d < 256 := by
      intro d hd
      obtain ⟨b, -, rfl⟩ := List.mem_map.mp hd
      exact b.toNat_lt
    have hlength : (xs.map UInt8.toNat).length = (ys.map UInt8.toNat).length := by
      rw [List.length_map, List.length_map, hx, hy]
    have hmap := Nat.ofDigits_inj_of_len_eq (by decide) hlength (small xs) (small ys) hdigits
    exact (List.map_inj_right fun _ _ => UInt8.toNat_inj.mp).mp hmap
  · rintro rfl
    rfl

end Bytes

theorem Sha256.length_digest (message : Bytes) : (digest message).length = 32 := rfl

namespace Value

/-- The length of every text, byte sequence and array in the value is one that a word holds. -/
inductive Sized : Value → Prop
  | null : Sized .null
  | bool (b : Bool) : Sized (.bool b)
  | int (n : Int64) : Sized (.int n)
  | float (x : Binary64) : Sized (.float x)
  | text {s : String} (length : (Bytes.ofText s).length < UInt64.size) : Sized (.text s)
  | bytes {b : Bytes} (length : b.length < UInt64.size) : Sized (.bytes b)
  | array {items : List Value} (length : items.length < UInt64.size)
      (each : ∀ item ∈ items, Sized item) : Sized (.array items)

mutual
/-- The bytes of a value, with anything after them, determine the value and what is after them. -/
theorem eq_of_canonical_append : ∀ {a b : Value} {s t : Bytes}, a.Sized → b.Sized →
    canonical a ++ s = canonical b ++ t → a = b ∧ s = t
  -- The first bytes are the tags, which leaves only values of one kind.
  | .null, b, s, t, _, _, h => by
    cases b with
    | null => exact ⟨rfl, by simpa [canonical] using h⟩
    | _ => simp [canonical] at h
  | .bool x, b, s, t, _, _, h => by
    cases b with
    | bool y => cases x <;> cases y <;> simp_all [canonical]
    | _ => simp [canonical] at h
  | .int m, b, s, t, _, _, h => by
    cases b with
    | int n =>
      simp only [canonical, List.cons_append, List.cons.injEq, true_and,
        Bytes.ofWord_append_inj] at h
      exact ⟨congrArg (fun bits => int bits.toInt64) h.1, h.2⟩
    | _ => simp [canonical] at h
  | .float x, b, s, t, _, _, h => by
    cases b with
    | float y =>
      simp only [canonical, List.cons_append, List.cons.injEq, true_and,
        Bytes.ofWord_append_inj] at h
      exact ⟨congrArg (fun bits => float ⟨bits⟩) h.1, h.2⟩
    | _ => simp [canonical] at h
  | .text x, b, s, t, .text hx, hb, h => by
    cases hb with
    | text hy =>
      simp only [canonical, List.cons_append, List.cons.injEq, true_and] at h
      obtain ⟨hbytes, hrest⟩ := Bytes.counted_append_inj hx hy h
      exact ⟨congrArg text (Bytes.ofText_inj.mp hbytes), hrest⟩
    | _ => simp [canonical] at h
  | .bytes x, b, s, t, .bytes hx, hb, h => by
    cases hb with
    | bytes hy =>
      simp only [canonical, List.cons_append, List.cons.injEq, true_and] at h
      obtain ⟨hbytes, hrest⟩ := Bytes.counted_append_inj hx hy h
      exact ⟨congrArg bytes hbytes, hrest⟩
    | _ => simp [canonical] at h
  | .array xs, b, s, t, .array hx hxs, hb, h => by
    cases hb with
    | array hy hys =>
      simp only [canonical, List.cons_append, List.cons.injEq, true_and, List.append_assoc,
        Bytes.ofWord_append_inj] at h
      have hlength := Bytes.eq_of_ofNat_eq hx hy h.1
      obtain ⟨hitems, hrest⟩ := eq_of_canonicalItems_append hlength hxs hys h.2
      exact ⟨congrArg array hitems, hrest⟩
    | _ => simp [canonical] at h

theorem eq_of_canonicalItems_append : ∀ {xs ys : List Value} {s t : Bytes},
    xs.length = ys.length → (∀ item ∈ xs, item.Sized) → (∀ item ∈ ys, item.Sized) →
    canonicalItems xs ++ s = canonicalItems ys ++ t → xs = ys ∧ s = t
  | [], [], _, _, _, _, _, h => ⟨rfl, by simpa using h⟩
  | x :: xs, y :: ys, s, t, hlength, hx, hy, h => by
    rw [List.forall_mem_cons] at hx hy
    rw [canonicalItems_cons, canonicalItems_cons, List.append_assoc, List.append_assoc] at h
    obtain ⟨rfl, hitems⟩ := eq_of_canonical_append hx.1 hy.1 h
    obtain ⟨rfl, hrest⟩ :=
      eq_of_canonicalItems_append (Nat.succ.inj hlength) hx.2 hy.2 hitems
    exact ⟨rfl, hrest⟩
end

theorem componentHash_of_not_isNull {v : Value} (h : v.isNull = false) :
    v.componentHash = Bytes.toWord ((Sha256.digest v.canonical).take 8) := by
  rw [componentHash, h, if_neg Bool.false_ne_true]

/-- Values of which every length fits a word are equal exactly if their bytes, with anything after
them, are equal and so is what comes after them. No value's bytes begin those of another. Values
that differ, neither of them null, have one component hash only if the digests of their bytes,
which differ, begin with the same eight bytes. -/
theorem canonical_append_eq_iff {a b : Value} (ha : a.Sized) (hb : b.Sized) :
    (∀ s t, a.canonical ++ s = b.canonical ++ t ↔ a.same b = true ∧ s = t) ∧
    (a.canonical <+: b.canonical → a.same b = true) ∧
    (a.same b = false → a.isNull = false → b.isNull = false →
      a.componentHash = b.componentHash → a.canonical ≠ b.canonical ∧
        (Sha256.digest a.canonical).take 8 = (Sha256.digest b.canonical).take 8) := by
  have unique : ∀ s t, a.canonical ++ s = b.canonical ++ t ↔ a.same b = true ∧ s = t := by
    intro s t
    rw [same_iff]
    constructor
    · exact eq_of_canonical_append ha hb
    · rintro ⟨rfl, rfl⟩
      rfl
  have noPrefix : a.canonical <+: b.canonical → a.same b = true := by
    rintro ⟨s, hs⟩
    exact ((unique s []).mp (hs.trans (List.append_nil _).symm)).1
  refine ⟨unique, noPrefix, fun hne hna hnb hhash => ⟨fun h => ?_, ?_⟩⟩
  · rw [noPrefix (h ▸ List.prefix_rfl)] at hne
    cases hne
  · have length (message : Bytes) : ((Sha256.digest message).take 8).length = 8 := by
      rw [List.length_take, Sha256.length_digest]
      rfl
    rw [componentHash_of_not_isNull hna, componentHash_of_not_isNull hnb] at hhash
    exact (Bytes.toWord_inj (length _) (length _)).mp hhash

/-- An array whose items begin those of another: its bytes do not begin the other's, because the
number of items comes first. -/
theorem canonical_append_eq_iff_of_arrays :
    let one : Value := .array [.text "a"]
    let two : Value := .array [.text "a", .null]
    one.Sized ∧ two.Sized ∧ one.canonical ++ [0] ≠ two.canonical ++ [] ∧
      ¬ one.canonical <+: two.canonical ∧
      (one.componentHash = two.componentHash → one.canonical ≠ two.canonical ∧
        (Sha256.digest one.canonical).take 8 = (Sha256.digest two.canonical).take 8) := by
  intro one two
  have hone : one.Sized := .array (by decide) (by simpa using .text (by decide))
  have htwo : two.Sized := .array (by decide) (by simpa using ⟨.text (by decide), .null⟩)
  have hne : one.same two = false := by decide
  obtain ⟨unique, noPrefix, collision⟩ := canonical_append_eq_iff hone htwo
  refine ⟨hone, htwo, fun h => ?_, fun h => ?_, collision hne rfl rfl⟩
  · exact absurd ((unique [0] []).mp h).1 (by rw [hne]; decide)
  · exact absurd (noPrefix h) (by rw [hne]; decide)

end Value
end ResultCache
