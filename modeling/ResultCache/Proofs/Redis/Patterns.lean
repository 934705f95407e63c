import ResultCache.Proofs.TextBytes
import ResultCache.Registry

/-! # Key patterns -/

namespace ResultCache

namespace Redis.Pattern

inductive Item where
  /-- Any bytes, or none. -/
  | any
  | one
  | byte (b : UInt8)
  /-- A byte that lies in one of the ranges, or one that lies in none. -/
  | ranges (negated : Bool) (bounds : List (UInt8 × UInt8))

@[match_pattern] def star : UInt8 := 42
@[match_pattern] def question : UInt8 := 63
@[match_pattern] def opening : UInt8 := 91
@[match_pattern] def backslash : UInt8 := 92
@[match_pattern] def closing : UInt8 := 93
@[match_pattern] def caret : UInt8 := 94
@[match_pattern] def hyphen : UInt8 := 45

mutual
/-- The places of a pattern. A backslash at the end stands for itself. -/
def items : Bytes → List Item
  | [] => []
  | star :: p => .any :: items p
  | question :: p => .one :: items p
  | opening :: caret :: p => itemsInClass true [] p
  | opening :: p => itemsInClass false [] p
  | backslash :: b :: p => .byte b :: items p
  | b :: p => .byte b :: items p

/-- The places of a pattern whose class is open. A class that is never closed ends with the
pattern. -/
def itemsInClass (negated : Bool) (bounds : List (UInt8 × UInt8)) : Bytes → List Item
  | [] => [.ranges negated bounds]
  | backslash :: b :: p => itemsInClass negated ((b, b) :: bounds) p
  | closing :: p => .ranges negated bounds :: items p
  | first :: hyphen :: last :: p => itemsInClass negated ((first, last) :: bounds) p
  | b :: p => itemsInClass negated ((b, b) :: bounds) p
end

/-- Whether a single byte fits a place. The bounds of a range may stand in either order. -/
def Item.admits : Item → UInt8 → Bool
  | .any, _ => true
  | .one, _ => true
  | .byte b, c => b = c
  | .ranges negated bounds, c =>
    (bounds.any fun (a, b) => (a ≤ c && c ≤ b) || (b ≤ c && c ≤ a)) != negated

def fits : List Item → Bytes → Bool
  | [], s => s.isEmpty
  | .any :: p, s => s.tails.any fun rest => fits p rest
  | _ :: _, [] => false
  | item :: p, b :: s => item.admits b && fits p s

def matchesKey (pattern key : String) : Bool :=
  fits (items (Bytes.ofText pattern)) (Bytes.ofText key)

def isSpecial (b : UInt8) : Bool :=
  b = star || b = question || b = opening || b = closing || b = backslash

theorem items_cons {b : UInt8} (hstar : b ≠ star) (hquestion : b ≠ question)
    (hopening : b ≠ opening) (hbackslash : b ≠ backslash) (p : Bytes) :
    items (b :: p) = .byte b :: items p := by
  rw [items]
  · exact hstar
  · exact hquestion
  · exact fun _ hb _ => hopening hb
  · exact hopening
  · exact fun _ _ hb _ => hbackslash hb

theorem items_cons_of_not_isSpecial {b : UInt8} (h : isSpecial b = false) (p : Bytes) :
    items (b :: p) = .byte b :: items p := by
  simp only [isSpecial, Bool.or_eq_false_iff, decide_eq_false_iff_not] at h
  obtain ⟨⟨⟨⟨hstar, hquestion⟩, hopening⟩, -⟩, hbackslash⟩ := h
  exact items_cons hstar hquestion hopening hbackslash p

theorem items_append_star {bytes : Bytes} (h : ∀ b ∈ bytes, isSpecial b = false) :
    items (bytes ++ [star]) = bytes.map .byte ++ [.any] := by
  induction bytes with
  | nil => rfl
  | cons b bytes ih =>
    have hb := h b List.mem_cons_self
    have hrest := ih fun c hc => h c (List.mem_cons_of_mem b hc)
    rw [List.cons_append, items_cons_of_not_isSpecial hb, hrest, List.map_cons, List.cons_append]

theorem fits_append_any (bytes key : Bytes) :
    fits (bytes.map .byte ++ [.any]) key = true ↔ bytes <+: key := by
  induction bytes generalizing key with
  | nil =>
    have hnil : [] ∈ key.tails := (List.mem_tails [] key).mpr (List.nil_suffix)
    simp only [List.map_nil, List.nil_append, List.nil_prefix, iff_true, fits, List.any_eq_true]
    exact ⟨[], hnil, rfl⟩
  | cons b bytes ih =>
    cases key with
    | nil => simp [fits]
    | cons c key =>
      simp only [List.map_cons, List.cons_append, fits, Item.admits, Bool.and_eq_true,
        decide_eq_true_eq, ih, List.cons_prefix_cons]

/-- A text without pattern characters. -/
def Plain (s : String) : Prop := ∀ c ∈ s.toList, Registry.isGlobChar c = false

theorem isSpecial_of_plain {s : String} (h : Plain s) :
    ∀ b ∈ Bytes.ofText s, isSpecial b = false := by
  intro b hb
  by_contra hspecial
  have hglob (c : Char) (hlow : b < 128) (hc : c.toNat = b.toNat) : Registry.isGlobChar c = false :=
    h c (Bytes.mem_of_mem_ofText hb hlow hc)
  simp only [isSpecial, Bool.not_eq_false, Bool.or_eq_true, decide_eq_true_eq] at hspecial
  rcases hspecial with (((rfl | rfl) | rfl) | rfl) | rfl
  · exact absurd (hglob '*' (by decide) rfl) (by decide)
  · exact absurd (hglob '?' (by decide) rfl) (by decide)
  · exact absurd (hglob '[' (by decide) rfl) (by decide)
  · exact absurd (hglob ']' (by decide) rfl) (by decide)
  · exact absurd (hglob '\\' (by decide) rfl) (by decide)

theorem matchesKey_append_star {s key : String} (h : Plain s) :
    matchesKey (s ++ "*") key = true ↔ ∃ rest, key = s ++ rest := by
  have hstar : Bytes.ofText "*" = [star] := rfl
  rw [matchesKey, Bytes.ofText_append, hstar, items_append_star (isSpecial_of_plain h),
    fits_append_any, Bytes.ofText_prefix_iff]

example : matchesKey "users:*" "users:a:*" = true ∧ matchesKey "users:*" "user:a" = false ∧
    matchesKey "h[^a-d]l?o\\*" "hello*" = true ∧ matchesKey "h[^a-d]l?o\\*" "hallo*" = false := by
  decide

end Redis.Pattern
end ResultCache
