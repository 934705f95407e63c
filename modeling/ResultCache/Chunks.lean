/-!
# Cutting a list into pieces of one length
-/

namespace ResultCache

/-- Consecutive pieces of `size` elements, the last one possibly shorter. -/
def chunks {α : Type} (size : Nat) : List α → List (List α)
  | [] => []
  | x :: rest => (x :: rest.take (size - 1)) :: chunks size (rest.drop (size - 1))
termination_by xs => xs.length

@[simp] theorem chunks_nil {α : Type} (size : Nat) : chunks (α := α) size [] = [] := by
  rw [chunks]

@[simp] theorem flatten_chunks {α : Type} (size : Nat) (xs : List α) :
    (chunks size xs).flatten = xs := by
  fun_induction chunks size xs with
  | case1 => rfl
  | case2 x rest ih => simp [ih]

theorem ne_nil_of_mem_chunks {α : Type} {size : Nat} {xs piece : List α}
    (h : piece ∈ chunks size xs) : piece ≠ [] := by
  fun_induction chunks size xs with
  | case1 => cases h
  | case2 x rest ih =>
    rcases List.mem_cons.mp h with rfl | hrest
    · exact List.cons_ne_nil _ _
    · exact ih hrest

theorem length_le_of_mem_chunks {α : Type} {size : Nat} (hsize : 0 < size) {xs piece : List α}
    (h : piece ∈ chunks size xs) : piece.length ≤ size := by
  fun_induction chunks size xs with
  | case1 => cases h
  | case2 x rest ih =>
    rcases List.mem_cons.mp h with rfl | hrest
    · rw [List.length_cons, List.length_take]
      omega
    · exact ih hrest

/-- A piece that is not the last one is full. -/
theorem length_of_mem_dropLast_chunks {α : Type} {size : Nat} (hsize : 0 < size)
    {xs piece : List α} (h : piece ∈ (chunks size xs).dropLast) : piece.length = size := by
  fun_induction chunks size xs with
  | case1 => cases h
  | case2 x rest ih =>
    by_cases hdrop : rest.drop (size - 1) = []
    · rw [hdrop, chunks_nil] at h
      cases h
    · have hlater : chunks size (rest.drop (size - 1)) ≠ [] := by
        intro hnil
        have hflatten := flatten_chunks size (rest.drop (size - 1))
        rw [hnil] at hflatten
        exact hdrop hflatten.symm
      rw [List.dropLast_cons_of_ne_nil hlater] at h
      rcases List.mem_cons.mp h with rfl | hrest
      · have hlong : ¬ rest.length ≤ size - 1 := mt List.drop_eq_nil_iff.mpr hdrop
        rw [List.length_cons, List.length_take]
        omega
      · exact ih hrest

end ResultCache
