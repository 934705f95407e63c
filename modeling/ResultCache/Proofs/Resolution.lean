import ResultCache.Proofs.Binding
import ResultCache.Proofs.Separators
import ResultCache.Statement.Key

/-! # What a property reads, and what binding answers -/

namespace ResultCache

variable {σ : Type}

namespace Parameters

theorem splitPath_of_not_mem {name : String} (h : '.' ∉ name.toList) :
    splitPath name = (name, Option.none) := by
  rw [splitPath, takeWhile_ne_of_not_mem h, List.drop_length]

private theorem splitPath_append {head : String} (h : '.' ∉ head.toList) (rest : String) :
    splitPath (head ++ "." ++ rest) = (head, some rest) := by
  have hchars : (head ++ "." ++ rest).toList = head.toList ++ '.' :: rest.toList := by
    rw [String.toList_append, String.toList_append, List.append_assoc]
    rfl
  rw [splitPath, hchars, takeWhile_ne_append_cons h, List.drop_left]
  simp only [String.ofList_toList]

private theorem exists_path (property : String) : '.' ∉ property.toList ∨
    ∃ head rest : String, '.' ∉ head.toList ∧ property = head ++ "." ++ rest := by
  by_cases h : '.' ∈ property.toList
  · obtain ⟨head, rest, hproperty, hhead⟩ := List.eq_append_cons_of_mem h
    refine .inr ⟨String.ofList head, String.ofList rest, ?_, String.toList_inj.mp ?_⟩
    · rwa [String.toList_ofList]
    · simp only [hproperty, String.toList_append, String.toList_ofList, List.append_assoc]
      rfl
  · exact .inl h

private theorem dot_not_mem_head (property : String) : '.' ∉ (splitPath property).1.toList := by
  rcases exists_path property with h | ⟨head, rest, h, rfl⟩
  · rwa [splitPath_of_not_mem h]
  · rwa [splitPath_append h]

theorem head_ne_of_mem {name : String} (h : '.' ∈ name.toList) (property : String) :
    (splitPath property).1 ≠ name := fun he => dot_not_mem_head property (he ▸ h)

/-- The value that a property reads. -/
inductive Reads : Parameters → String → Value → Prop
  | none (property : String) : Reads .none property .null
  | scalar (value : Value) (property : String) : Reads (.scalar value) property value
  /-- A name reads the value under it, or null if there is none. -/
  | name (values : Dictionary Value) {name : String} (plain : '.' ∉ name.toList) :
    Reads (.named values) name ((values.find? name).getD .null)
  /-- A path reads null below a null value and where there is no value. -/
  | path (values : Dictionary Value) {head : String} (plain : '.' ∉ head.toList) (rest : String)
    (null : (values.find? head).getD .null = .null) :
    Reads (.named values) (head ++ "." ++ rest) .null

end Parameters

/-- The property is a path below a named value that is not null. -/
structure PathFault.Arises (fault : PathFault) (params : Parameters) (property : String) :
    Prop where
  path : property = fault.head ++ "." ++ fault.rest
  plain : '.' ∉ fault.head.toList
  holds : ∃ values, params = .named values ∧ values.find? fault.head = some fault.holding
  below : fault.holding ≠ .null

namespace Parameters

private theorem resolve_name (values : Dictionary Value) {name : String} (h : '.' ∉ name.toList) :
    (named values).resolve name = .ok ((values.find? name).getD .null) := by
  simp only [resolve, splitPath_of_not_mem h]
  rcases values.find? name with _ | _ | _ <;> rfl

private theorem resolve_path_of_null {values : Dictionary Value} {head : String}
    (h : '.' ∉ head.toList) (null : (values.find? head).getD .null = .null) (rest : String) :
    (named values).resolve (head ++ "." ++ rest) = .ok .null := by
  simp only [resolve, splitPath_append h]
  cases hv : values.find? head with
  | none => rfl
  | some value =>
    rw [hv] at null
    obtain rfl : value = .null := null
    rfl

private theorem resolve_path_of_ne {values : Dictionary Value} {head : String}
    (h : '.' ∉ head.toList)
    {value : Value} (hv : values.find? head = some value) (below : value ≠ .null) (rest : String) :
    (named values).resolve (head ++ "." ++ rest) = .error ⟨rest, head, value⟩ := by
  simp only [resolve, splitPath_append h, hv]

private theorem Reads.resolve_eq {params : Parameters} {property : String} {value : Value}
    (h : params.Reads property value) : params.resolve property = .ok value := by
  cases h with
  | none => rfl
  | scalar => rfl
  | name values plain => exact resolve_name values plain
  | path values plain rest null => exact resolve_path_of_null plain null rest

private theorem resolve_of_arises {params : Parameters} {property : String} {fault : PathFault}
    (h : fault.Arises params property) : params.resolve property = .error fault := by
  obtain ⟨rest, head, holding⟩ := fault
  obtain ⟨rfl, plain, ⟨values, rfl, hv⟩, below⟩ := h
  exact resolve_path_of_ne plain hv below rest

theorem reads_or_arises (params : Parameters) (property : String) :
    (∃ value, params.Reads property value) ∨ ∃ fault : PathFault, fault.Arises params property := by
  cases params with
  | none => exact .inl ⟨_, .none property⟩
  | scalar value => exact .inl ⟨_, .scalar value property⟩
  | named values =>
    rcases exists_path property with plain | ⟨head, rest, plain, rfl⟩
    · exact .inl ⟨_, .name values plain⟩
    · by_cases null : (values.find? head).getD .null = .null
      · exact .inl ⟨_, .path values plain rest null⟩
      · obtain ⟨value, hv⟩ : ∃ value, values.find? head = some value :=
          Option.ne_none_iff_exists'.mp fun hnone => null (by rw [hnone]; rfl)
        rw [hv] at null
        exact .inr ⟨⟨rest, head, value⟩, rfl, plain, ⟨values, rfl, hv⟩, null⟩

theorem resolve_eq_ok_iff {params : Parameters} {property : String} {value : Value} :
    params.resolve property = .ok value ↔ params.Reads property value := by
  refine ⟨fun h => ?_, Reads.resolve_eq⟩
  rcases reads_or_arises params property with ⟨other, hreads⟩ | ⟨fault, harises⟩
  · exact Except.ok.inj (h.symm.trans hreads.resolve_eq) ▸ hreads
  · cases h.symm.trans (resolve_of_arises harises)

theorem resolve_eq_error_iff {params : Parameters} {property : String} {fault : PathFault} :
    params.resolve property = .error fault ↔ fault.Arises params property := by
  refine ⟨fun h => ?_, resolve_of_arises⟩
  rcases reads_or_arises params property with ⟨value, hreads⟩ | ⟨other, harises⟩
  · cases h.symm.trans hreads.resolve_eq
  · exact Except.error.inj (h.symm.trans (resolve_of_arises harises)) ▸ harises

end Parameters

namespace Statement

private theorem bindMapping_eq_ok_iff {params : Parameters} {m : ParameterMapping} {value : Value} :
    bindMapping params m = .ok value ↔
      if m.mode = .output then value = .null else params.Reads m.property value := by
  by_cases h : m.isRead = true
  · rw [bindMapping_of_isRead h, if_neg (ParameterMapping.isRead_iff.mp h),
      Parameters.resolve_eq_ok_iff]
  · have hmode : m.mode = .output := not_not.mp fun hne => h (ParameterMapping.isRead_iff.mpr hne)
    rw [bindMapping_of_not_isRead h, if_pos hmode]
    exact ⟨fun he => (Except.ok.inj he).symm, fun he => he ▸ rfl⟩

private theorem bindMapping_eq_error_iff {params : Parameters} {m : ParameterMapping}
    {fault : PathFault} :
    bindMapping params m = .error fault ↔ m.mode ≠ .output ∧ fault.Arises params m.property := by
  by_cases h : m.isRead = true
  · rw [bindMapping_of_isRead h, Parameters.resolve_eq_error_iff,
      and_iff_right (ParameterMapping.isRead_iff.mp h)]
  · rw [bindMapping_of_not_isRead h, ← ParameterMapping.isRead_iff]
    exact iff_of_false nofun fun hread => h hread.1

/-- The fault is that of the first mapping that is read and cannot be. -/
def FailsFirst (mappings : List ParameterMapping) (params : Parameters) (fault : PathFault) :
    Prop :=
  ∃ before m after, mappings = before ++ m :: after ∧ m.mode ≠ .output ∧
    fault.Arises params m.property ∧
    ∀ earlier ∈ before, earlier.mode ≠ .output →
      ∀ other : PathFault, ¬ other.Arises params earlier.property

theorem bind_eq_error_iff {st : Statement σ} {params : Parameters} {fault : PathFault} :
    st.bind params = .error fault ↔ FailsFirst st.mappings params fault := by
  have hbind : st.bind params = .error fault ↔
      st.mappings.mapM (bindMapping params) = .error fault := by
    rw [bind_eq]
    cases st.mappings.mapM (bindMapping params) with
    | error other => simp only [Except.map, Except.error.injEq]
    | ok values => exact iff_of_false nofun nofun
  have hbound : ∀ m, (∃ value, bindMapping params m = .ok value) ↔
      (m.mode ≠ .output → ∀ other : PathFault, ¬ other.Arises params m.property) := by
    intro m
    cases hm : bindMapping params m with
    | ok value =>
      refine iff_of_true ⟨value, rfl⟩ fun hmode other harises => ?_
      cases hm.symm.trans (bindMapping_eq_error_iff.mpr ⟨hmode, harises⟩)
    | error other =>
      obtain ⟨hmode, harises⟩ := bindMapping_eq_error_iff.mp hm
      exact iff_of_false nofun fun h => h hmode other harises
  rw [hbind, mapM_eq_error_iff]
  simp only [hbound, bindMapping_eq_error_iff, and_assoc, FailsFirst]

theorem bind_eq_ok_iff {st : Statement σ} {params : Parameters} {bound : BoundStatement} :
    st.bind params = .ok bound ↔ bound.sql = st.sql ∧ bound.mappings = st.mappings ∧
      List.Forall₂ (fun m value => if m.mode = .output then value = .null
        else params.Reads m.property value) st.mappings bound.values := by
  obtain ⟨sql, mappings, values⟩ := bound
  simp only [← bindMapping_eq_ok_iff, ← mapM_eq_ok_iff]
  rw [bind_eq]
  cases st.mappings.mapM (bindMapping params) with
  | error fault => exact iff_of_false nofun fun h => nomatch h.2.2
  | ok others =>
    simp only [Except.map, Except.ok.injEq, BoundStatement.mk.injEq]
    exact and_congr eq_comm (and_congr eq_comm Iff.rfl)

private theorem reads_inputs {st : Statement σ} {params : Parameters} {bound : BoundStatement}
    (h : st.bind params = .ok bound) :
    List.Forall₂ (fun m value => params.Reads m.property value) st.reads bound.inputs := by
  have hinputs := inputs_bind st params
  rw [h] at hinputs
  have hreadings := mapM_eq_ok_iff.mp hinputs.symm
  rw [readings, List.forall₂_map_left_iff] at hreadings
  exact hreadings.imp fun _ _ => Parameters.resolve_eq_ok_iff.mp

theorem exists_bind_error_iff (st : Statement σ) (params : Parameters) :
    (∃ fault, st.bind params = .error fault) ↔
      ∃ m ∈ st.mappings, m.mode ≠ .output ∧
        ∃ fault : PathFault, fault.Arises params m.property := by
  constructor
  · rintro ⟨fault, h⟩
    obtain ⟨before, m, after, hmappings, hmode, harises, -⟩ := bind_eq_error_iff.mp h
    exact ⟨m, hmappings ▸ List.mem_append_right before List.mem_cons_self, hmode, fault, harises⟩
  · rintro ⟨m, hm, hmode, fault, harises⟩
    rw [bind_eq]
    cases hmapM : st.mappings.mapM (bindMapping params) with
    | error other => exact ⟨other, rfl⟩
    | ok values =>
      obtain ⟨value, hvalue⟩ := exists_ok_of_mapM hmapM hm
      cases hvalue.symm.trans (bindMapping_eq_error_iff.mpr ⟨hmode, harises⟩)

private theorem message_key_statement (id : String) (fault : PathFault) :
    (Error.key (.statement id fault)).message = "Cache key error: Cannot build cache key for '" ++
      id ++ "': " ++ (Error.key (.path fault)).message := by
  have hmessage : (Error.key (.statement id fault)).message = "Cache key error: " ++
      ("Cannot build cache key for '" ++ id ++ "': Cache key error: " ++ fault.message) := rfl
  have hcarried : (Error.key (.path fault)).message = "Cache key error: " ++ fault.message := rfl
  have hbegin : "Cache key error: Cannot build cache key for '" =
      "Cache key error: " ++ "Cannot build cache key for '" := by decide +kernel
  have hend : "': Cache key error: " = "': " ++ "Cache key error: " := by decide +kernel
  simp only [hmessage, hcarried, hbegin, hend, String.append_assoc, -String.reduceAppend]

theorem lookupKey_of_bind_error {st : Statement σ} {params : Parameters} {fault : PathFault}
    (h : st.bind params = .error fault) (bounds : RowBounds) (environment : Option String) :
    st.lookupKey params bounds environment = .error (.key (.statement st.id fault)) := by
  rw [lookupKey, h]

/-- Binding fails exactly if a property that is read is a path below a named value that is not null,
with the fault of the first such mapping; the invocation then has no key. Otherwise every mapping
has its value, null for outputs and for names without a value, and the inputs are what the others
read, in their order. -/
theorem bind_in_order (st : Statement σ) (params : Parameters) :
    ((∃ fault, st.bind params = .error fault) ↔
      ∃ m ∈ st.mappings, m.mode ≠ .output ∧
        ∃ fault : PathFault, fault.Arises params m.property) ∧
    (∀ fault, (st.bind params = .error fault ↔ FailsFirst st.mappings params fault) ∧
      (st.bind params = .error fault → ∀ bounds environment,
        st.lookupKey params bounds environment = .error (.key (.statement st.id fault)) ∧
        (Error.key (.statement st.id fault)).message =
          "Cache key error: Cannot build cache key for '" ++ st.id ++ "': " ++
            (Error.key (.path fault)).message)) ∧
    (∀ bound, st.bind params = .ok bound → bound.sql = st.sql ∧ bound.mappings = st.mappings ∧
      List.Forall₂ (fun m value => if m.mode = .output then value = .null
        else params.Reads m.property value) st.mappings bound.values ∧
      List.Forall₂ (fun m value => params.Reads m.property value) st.reads bound.inputs) ∧
    ∀ values, params = .named values → ∀ property,
      values.find? (Parameters.splitPath property).1 = none →
        (∀ value, params.Reads property value ↔ value = .null) ∧
        ∀ fault : PathFault, ¬ fault.Arises params property := by
  refine ⟨exists_bind_error_iff st params, fun fault => ⟨bind_eq_error_iff, fun h => ?_⟩,
    fun bound h => ?_, ?_⟩
  · intro bounds environment
    exact ⟨lookupKey_of_bind_error h bounds environment, message_key_statement st.id fault⟩
  · obtain ⟨hsql, hmappings, hvalues⟩ := bind_eq_ok_iff.mp h
    exact ⟨hsql, hmappings, hvalues, reads_inputs h⟩
  · rintro values rfl property habsent
    have hnull : (Parameters.named values).resolve property = .ok .null := by
      simp only [Parameters.resolve, habsent]
    refine ⟨fun value => ?_, fun fault harises => ?_⟩
    · rw [← Parameters.resolve_eq_ok_iff, hnull, Except.ok.injEq]
      exact eq_comm
    · cases hnull.symm.trans (Parameters.resolve_of_arises harises)

/-- An output is not read, and a path below a missing name is null: the third mapping is the first
that fails. -/
example :
    ({ (ofCommand .update "rename" "?" : Statement Nat) with
        mappings := [⟨"user.id", .output⟩, ⟨"group.id", .input⟩, ⟨"user.name.first", .inputOutput⟩,
          ⟨"user.name", .input⟩] } : Statement Nat).bind (Parameters.none.insert "user" (.int 7)) =
      .error ⟨"name.first", "user", .int 7⟩ := by
  decide +kernel

end Statement
end ResultCache
