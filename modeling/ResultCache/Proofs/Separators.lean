import Mathlib.Data.List.TakeWhile

/-! # Lists around a separator -/

namespace ResultCache

variable {α : Type} {sep : α}

theorem append_cons_eq_append_cons_iff {xs ys rs ss : List α} :
    xs ++ sep :: rs = ys ++ sep :: ss ↔ (xs = ys ∧ rs = ss) ∨
      (∃ tail, ys = xs ++ sep :: tail ∧ rs = tail ++ sep :: ss) ∨
        ∃ tail, xs = ys ++ sep :: tail ∧ ss = tail ++ sep :: rs := by
  rw [List.append_eq_append_iff]
  constructor
  · rintro (⟨_ | ⟨c, tail⟩, rfl, h⟩ | ⟨_ | ⟨c, tail⟩, rfl, h⟩)
    · simp_all
    · simp_all
    · simp_all
    · simp_all
  · rintro (⟨rfl, rfl⟩ | ⟨tail, rfl, rfl⟩ | ⟨tail, rfl, rfl⟩)
    · exact .inl ⟨[], by simp⟩
    · exact .inl ⟨sep :: tail, by simp⟩
    · exact .inr ⟨sep :: tail, by simp⟩

/-- Parts without the separator, each up to a separator or to the end, are told apart. -/
theorem append_inj_of_not_mem {xs ys rs ss : List α} (hx : sep ∉ xs) (hy : sep ∉ ys)
    (hr : ∀ c, rs.head? = some c → c = sep) (hs : ∀ c, ss.head? = some c → c = sep) :
    xs ++ rs = ys ++ ss ↔ xs = ys ∧ rs = ss := by
  constructor
  · rw [List.append_eq_append_iff]
    rintro (⟨_ | ⟨c, tail⟩, rfl, rfl⟩ | ⟨_ | ⟨c, tail⟩, rfl, rfl⟩)
    · exact ⟨(List.append_nil xs).symm, rfl⟩
    · exact absurd (List.mem_append_right xs (hr c rfl ▸ List.mem_cons_self)) hy
    · exact ⟨List.append_nil ys, rfl⟩
    · exact absurd (List.mem_append_right ys (hs c rfl ▸ List.mem_cons_self)) hx
  · rintro ⟨rfl, rfl⟩
    rfl

section Last

variable {p : α → Bool} {xs : List α} {x : α}

theorem findRev?_eq_some_iff : xs.findRev? p = some x ↔
    ∃ before after, xs = before ++ x :: after ∧ p x = true ∧ ∀ y ∈ after, p y = false := by
  rw [List.findRev?_eq_find?_reverse, List.find?_eq_some_iff_append]
  constructor
  · intro ⟨hx, after, before, hreverse, hafter⟩
    refine ⟨before.reverse, after.reverse, ?_, hx, by simpa using hafter⟩
    rw [← List.reverse_reverse xs, hreverse]
    simp
  · intro ⟨before, after, hxs, hx, hafter⟩
    exact ⟨hx, after.reverse, before.reverse, by simp [hxs], by simpa using hafter⟩

theorem findRev?_eq_none_iff : xs.findRev? p = none ↔ ∀ y ∈ xs, p y = false := by
  rw [List.findRev?_eq_find?_reverse, List.find?_eq_none]
  simp

theorem findRev?_concat : (xs ++ [x]).findRev? p = if p x then some x else xs.findRev? p := by
  rw [List.findRev?_eq_find?_reverse, List.findRev?_eq_find?_reverse, List.reverse_append]
  cases h : p x <;> simp [h]

end Last

variable [DecidableEq α]

theorem takeWhile_ne_of_not_mem {xs : List α} (h : sep ∉ xs) : xs.takeWhile (· ≠ sep) = xs :=
  List.takeWhile_eq_self_iff.mpr fun _ hx => decide_eq_true fun he => h (he ▸ hx)

theorem takeWhile_ne_append_cons {xs : List α} (h : sep ∉ xs) (rest : List α) :
    (xs ++ sep :: rest).takeWhile (· ≠ sep) = xs := by
  rw [List.takeWhile_append_of_pos fun _ hx => decide_eq_true (ne_of_mem_of_not_mem hx h),
    List.takeWhile_cons_of_neg (by simp), List.append_nil]

end ResultCache
