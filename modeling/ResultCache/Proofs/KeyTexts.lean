import ResultCache.Proofs.KeyExtensions

/-!
# What the text of a key tells apart

Texts of components may contain colons and print alike, so hash and checksum stand before them.
-/

namespace ResultCache.Key

private theorem hash_ofComponents_congr {xs ys : List Value}
    (h : xs.map Value.componentHash = ys.map Value.componentHash) :
    (ofComponents xs).hash = (ofComponents ys).hash := by
  have hlength : xs.length = ys.length := by
    rw [← List.length_map (f := Value.componentHash), h, List.length_map]
  have hplaces : hashAt xs = hashAt ys := by
    funext place
    rw [hashAt, hashAt, ← List.getElem?_map, ← List.getElem?_map, h]
  rw [hash_ofComponents, hash_ofComponents, hlength, hplaces]

theorem checksum_ofComponents_inj (before : List Value) (a b : Value) (after : List Value) :
    (ofComponents (before ++ a :: after)).checksum =
        (ofComponents (before ++ b :: after)).checksum ↔
      a.componentHash = b.componentHash := by
  simp only [checksum_ofComponents, List.map_append, List.map_cons, List.sum_append, List.sum_cons]
  rw [add_right_inj, add_left_inj]

private theorem componentsText_inj (before : List Value) (a b : Value) (after : List Value) :
    componentsText (before ++ a :: after) = componentsText (before ++ b :: after) ↔
      a.render = b.render := by
  simp only [componentsText, List.map_append, List.map_cons, String.join_append, String.join_cons]
  rw [String.append_right_inj, String.append_left_inj, String.append_right_inj]

/-- Keys that differ in one place have one text exactly if the two components there have one hash
and one text. -/
theorem render_ofComponents_inj (before : List Value) (a b : Value) (after : List Value) :
    (ofComponents (before ++ a :: after)).render = (ofComponents (before ++ b :: after)).render ↔
      a.componentHash = b.componentHash ∧ a.render = b.render := by
  rw [render_inj, checksum_ofComponents_inj, components_ofComponents, components_ofComponents,
    componentsText_inj]
  refine ⟨And.right, fun h => ⟨hash_ofComponents_congr ?_, h⟩⟩
  simp only [List.map_append, List.map_cons, h.1]

private theorem componentsText_eq_empty_iff (xs : List Value) :
    componentsText xs = "" ↔ xs = [] := by
  constructor
  · intro h
    cases xs with
    | nil => rfl
    | cons x xs =>
      have hlist := congrArg String.toList h
      rw [toList_componentsText_cons] at hlist
      cases hlist
  · rintro rfl
    rfl

/-- Keys that were built by any steps have one text exactly if their hashes, their checksums and the
texts of their components, each after a colon, are equal. Keys that differ in one place have
different texts unless the two components there have one hash and print alike. -/
theorem render_eq_iff_of_reachable {key other : Key} (hk : key.Reachable) (ho : other.Reachable) :
    (key.render = other.render ↔ key.hash = other.hash ∧ key.checksum = other.checksum ∧
      componentsText key.components = componentsText other.components) ∧
    (other.components ≠ [] → empty.render ≠ other.render) ∧
    ∀ before a b after, key.components = before ++ a :: after →
      other.components = before ++ b :: after →
      (key.render = other.render ↔ a.componentHash = b.componentHash ∧ a.render = b.render) := by
  refine ⟨render_inj, fun hne h => ?_, fun before a b after hkey hother => ?_⟩
  · obtain ⟨-, -, hcomponents⟩ := render_inj.mp h
    exact hne ((componentsText_eq_empty_iff _).mp hcomponents.symm)
  · rw [hk.eq_ofComponents, ho.eq_ofComponents, hkey, hother]
    exact render_ofComponents_inj before a b after

/-- A number and its digits, null and its word, and a text with a comma and an array of two texts
print alike, but keys that end in the one have other texts than keys that end in the other. -/
theorem render_eq_iff_of_reachable_of_alike :
    let key (last : Value) := ofComponents [.text "users.find", last]
    let alike (a b : Value) := a.render = b.render ∧ (key a).render ≠ (key b).render
    alike (.int 1) (.text "1") ∧ alike .null (.text "null") ∧
      alike (.text "[a,b]") (.array [.text "a", .text "b"]) ∧
      empty.render ≠ (key .null).render := by
  intro key alike
  have apart (a b : Value) (hne : a.componentHash ≠ b.componentHash) :
      (key a).render ≠ (key b).render := by
    obtain ⟨-, -, hone⟩ :=
      render_eq_iff_of_reachable (reachable_ofComponents [.text "users.find", a])
        (reachable_ofComponents [.text "users.find", b])
    intro h
    exact hne ((hone [.text "users.find"] a b [] rfl rfl).mp h).1
  obtain ⟨-, hempty, -⟩ := render_eq_iff_of_reachable (reachable_ofComponents [])
    (reachable_ofComponents [.text "users.find", .null])
  refine ⟨⟨by decide +kernel, apart _ _ (by decide +kernel)⟩,
    ⟨by decide +kernel, apart _ _ (by decide +kernel)⟩,
    ⟨by decide +kernel, apart _ _ (by decide +kernel)⟩, hempty (List.cons_ne_nil _ _)⟩

end ResultCache.Key
