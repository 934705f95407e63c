import Mathlib.Data.List.Forall2
import ResultCache.Statement

/-! # What a statement reads -/

namespace ResultCache

variable {σ : Type}

section Results

variable {α β ε : Type} {f : α → Except ε β} {xs : List α}

theorem mapM_eq_ok_iff {ys : List β} :
    xs.mapM f = .ok ys ↔ List.Forall₂ (fun x y => f x = .ok y) xs ys := by
  induction xs generalizing ys with
  | nil =>
    rw [List.mapM_nil, List.forall₂_nil_left_iff]
    exact ⟨fun h => (Except.ok.inj h).symm, fun h => h ▸ rfl⟩
  | cons x xs ih =>
    rw [List.mapM_cons, List.forall₂_cons_left_iff]
    simp only [← ih]
    cases f x with
    | error e => exact iff_of_false nofun nofun
    | ok y =>
      cases xs.mapM f with
      | error e => exact iff_of_false nofun nofun
      | ok zs =>
        constructor
        · rintro ⟨⟩
          exact ⟨y, zs, rfl, rfl, rfl⟩
        · rintro ⟨_, _, ⟨⟩, ⟨⟩, rfl⟩
          rfl

theorem mapM_eq_error_iff {e : ε} :
    xs.mapM f = .error e ↔ ∃ before x after, xs = before ++ x :: after ∧ f x = .error e ∧
      ∀ y ∈ before, ∃ z, f y = .ok z := by
  induction xs with
  | nil => exact iff_of_false nofun fun ⟨before, x, after, h, _⟩ => by simp at h
  | cons x xs ih =>
    rw [List.mapM_cons]
    cases hx : f x with
    | error first =>
      constructor
      · rintro ⟨⟩
        exact ⟨[], x, xs, rfl, hx, nofun⟩
      · rintro ⟨_ | ⟨y, before⟩, z, after, ⟨⟩, hz, hbefore⟩
        · cases hx.symm.trans hz
          rfl
        · obtain ⟨w, hw⟩ := hbefore x List.mem_cons_self
          cases hx.symm.trans hw
    | ok y =>
      have hrest : (.ok y >>= fun y => xs.mapM f >>= fun ys => pure (y :: ys)) = .error e ↔
          xs.mapM f = .error e := by
        cases xs.mapM f with
        | error other => exact Iff.rfl
        | ok ys => exact iff_of_false nofun nofun
      rw [hrest, ih]
      constructor
      · rintro ⟨before, z, after, rfl, hz, hbefore⟩
        exact ⟨x :: before, z, after, rfl, hz, List.forall_mem_cons.mpr ⟨⟨y, hx⟩, hbefore⟩⟩
      · rintro ⟨_ | ⟨w, before⟩, z, after, ⟨⟩, hz, hbefore⟩
        · cases hx.symm.trans hz
        · exact ⟨before, z, after, rfl, hz, (List.forall_mem_cons.mp hbefore).2⟩

theorem exists_ok_of_mapM {ys : List β} (h : xs.mapM f = .ok ys) {x : α} (hx : x ∈ xs) :
    ∃ y, f x = .ok y := by
  replace h := mapM_eq_ok_iff.mp h
  induction h with
  | nil => cases hx
  | cons hy _ ih =>
    rcases List.mem_cons.mp hx with rfl | hx
    · exact ⟨_, hy⟩
    · exact ih hx

theorem eq_map_ok_of_mapM {results : List (Except ε β)} {values : List β}
    (h : (results.mapM fun result => result) = .ok values) : results = values.map .ok := by
  rw [← List.forall₂_eq_eq_eq, List.forall₂_map_right_iff]
  exact mapM_eq_ok_iff.mp h

end Results

def ParameterMapping.isRead (m : ParameterMapping) : Bool := m.mode ≠ .output

@[simp] theorem ParameterMapping.isRead_iff {m : ParameterMapping} :
    m.isRead = true ↔ m.mode ≠ .output := by
  simp [isRead]

namespace Statement

/-- The mappings that are read, in the order of the placeholders. -/
def reads (st : Statement σ) : List ParameterMapping := st.mappings.filter ParameterMapping.isRead

/-- What the mappings that are read resolve to. -/
def readings (st : Statement σ) (params : Parameters) : List (Except PathFault Value) :=
  st.reads.map fun m => params.resolve m.property

theorem readings_eq_iff (st : Statement σ) (params other : Parameters) :
    st.readings params = st.readings other ↔ ∀ m ∈ st.mappings, m.mode ≠ .output →
      params.resolve m.property = other.resolve m.property := by
  simp [readings, reads]

theorem bindMapping_of_isRead {m : ParameterMapping} (h : m.isRead = true) (params : Parameters) :
    bindMapping params m = params.resolve m.property := by
  have hm := ParameterMapping.isRead_iff.mp h
  rw [bindMapping]
  split
  · exact absurd ‹_› hm
  · rfl

theorem bindMapping_of_not_isRead {m : ParameterMapping} (h : ¬ m.isRead = true)
    (params : Parameters) : bindMapping params m = .ok .null := by
  have hm : m.mode = .output :=
    Decidable.not_not.mp fun hne => h (ParameterMapping.isRead_iff.mpr hne)
  rw [bindMapping, hm]

private theorem inputs_cons (sql : String) (m : ParameterMapping) (mappings : List ParameterMapping)
    (v : Value) (values : List Value) :
    (BoundStatement.mk sql (m :: mappings) (v :: values)).inputs =
      if m.isRead then v :: (BoundStatement.mk sql mappings values).inputs
      else (BoundStatement.mk sql mappings values).inputs := by
  by_cases h : m.mode = .output <;> simp [BoundStatement.inputs, ParameterMapping.isRead, h]

private theorem inputs_mapM_bindMapping (sql : String) (mappings : List ParameterMapping)
    (params : Parameters) :
    (mappings.mapM (bindMapping params)).map
        (fun values => (BoundStatement.mk sql mappings values).inputs) =
      (mappings.filter ParameterMapping.isRead).mapM fun m => params.resolve m.property := by
  induction mappings with
  | nil => rfl
  | cons m mappings ih =>
    rw [List.mapM_cons]
    by_cases h : m.isRead = true
    · rw [bindMapping_of_isRead h, List.filter_cons_of_pos h, List.mapM_cons, ← ih]
      cases params.resolve m.property with
      | error fault => rfl
      | ok v =>
        cases mappings.mapM (bindMapping params) with
        | error fault => rfl
        | ok values =>
          exact congrArg Except.ok ((inputs_cons sql m mappings v values).trans (if_pos h))
    · rw [bindMapping_of_not_isRead h, List.filter_cons_of_neg h, ← ih]
      cases mappings.mapM (bindMapping params) with
      | error fault => rfl
      | ok values =>
        exact congrArg Except.ok ((inputs_cons sql m mappings .null values).trans (if_neg h))

theorem bind_eq (st : Statement σ) (params : Parameters) :
    st.bind params =
      (st.mappings.mapM (bindMapping params)).map fun values => ⟨st.sql, st.mappings, values⟩ := by
  rw [bind]
  cases st.mappings.mapM (bindMapping params) <;> rfl

theorem inputs_bind (st : Statement σ) (params : Parameters) :
    (st.bind params).map BoundStatement.inputs =
      (st.readings params).mapM fun reading => reading := by
  have hinputs := inputs_mapM_bindMapping st.sql st.mappings params
  rw [readings, List.mapM_map]
  change _ = st.reads.mapM fun m => params.resolve m.property
  rw [reads, ← hinputs, bind_eq]
  cases st.mappings.mapM (bindMapping params) <;> rfl

theorem sql_of_bind {st : Statement σ} {params : Parameters} {bound : BoundStatement}
    (h : st.bind params = .ok bound) : bound.sql = st.sql := by
  rw [bind_eq] at h
  cases hm : st.mappings.mapM (bindMapping params) with
  | error fault =>
    rw [hm] at h
    cases h
  | ok values =>
    rw [hm] at h
    cases h
    rfl

end Statement
end ResultCache
