import Mathlib.Data.List.Basic
import ResultCache.Proofs.Binding
import ResultCache.Statement.Key

/-!
# What a lookup key identifies

The environment is one more component, without a mark of its own.
-/

namespace ResultCache

variable {σ : Type}

namespace Key

theorem components_ofComponents (components : List Value) :
    (ofComponents components).components = components := by
  rw [ofComponents, components_updateAll, empty, List.nil_append]

theorem ofComponents_inj {xs ys : List Value} : ofComponents xs = ofComponents ys ↔ xs = ys := by
  constructor
  · intro h
    rw [← components_ofComponents xs, h, components_ofComponents]
  · rintro rfl
    rfl

end Key

theorem Parameters.resolve_insert {values : Dictionary Value} {name property : String}
    (h : (splitPath property).1 ≠ name) (value : Value) :
    (named (values.insert name value)).resolve property = (named values).resolve property := by
  rcases hs : splitPath property with ⟨head, rest⟩
  rw [hs] at h
  simp only [resolve, hs, Dictionary.find?_insert, if_neg h]

namespace Statement

/-- The components of the key of an invocation in which the statement reads the given inputs. -/
def invocation (st : Statement σ) (inputs : List Value) (bounds : RowBounds)
    (environment : Option String) : List Value :=
  [.text st.id, .int bounds.offset.toInt64, .int bounds.limit.toInt64, .text st.sql] ++
    (inputs ++ environment.toList.map .text)

theorem invocation_inj {st other : Statement σ} {xs ys : List Value} {b c : RowBounds}
    {e f : Option String} : st.invocation xs b e = other.invocation ys c f ↔
      st.id = other.id ∧ b.offset = c.offset ∧ b.limit = c.limit ∧ st.sql = other.sql ∧
        xs ++ e.toList.map .text = ys ++ f.toList.map .text := by
  simp [invocation, Word.toInt64_inj]

theorem lookupKey_eq (st : Statement σ) (params : Parameters) (bounds : RowBounds)
    (environment : Option String) :
    st.lookupKey params bounds environment =
      match (st.readings params).mapM fun reading => reading with
      | .error fault => .error (.key (.statement st.id fault))
      | .ok inputs => .ok (Key.ofComponents (st.invocation inputs bounds environment)) := by
  rw [← inputs_bind, lookupKey]
  cases hb : st.bind params with
  | error fault => rfl
  | ok bound =>
    simp only [Except.map, keyComponents, invocation, sql_of_bind hb, List.append_assoc]

theorem inputs_of_lookupKey {st : Statement σ} {params : Parameters} {bounds : RowBounds}
    {environment : Option String} {key : Key}
    (h : st.lookupKey params bounds environment = .ok key) :
    ∃ inputs, st.readings params = inputs.map .ok ∧
      key = Key.ofComponents (st.invocation inputs bounds environment) := by
  rw [lookupKey_eq] at h
  cases hr : (st.readings params).mapM fun reading => reading with
  | error fault =>
    rw [hr] at h
    cases h
  | ok inputs =>
    rw [hr] at h
    cases h
    exact ⟨inputs, eq_map_ok_of_mapM hr, rfl⟩

theorem lookupKey_congr {st other : Statement σ} {p q : Parameters}
    (readings : st.readings p = other.readings q) (id : st.id = other.id)
    (sql : st.sql = other.sql) (bounds : RowBounds) (environment : Option String) :
    st.lookupKey p bounds environment = other.lookupKey q bounds environment := by
  rw [lookupKey_eq, lookupKey_eq, readings, id]
  simp only [invocation, id, sql]

private theorem map_ok_inj {xs ys : List Value} :
    (xs.map .ok : List (Except PathFault Value)) = ys.map .ok ↔ xs = ys :=
  List.map_inj_right fun _ _ => Except.ok.inj

/-- Two invocations of a statement have one key exactly if they have the same window, read the same
values in the order of the placeholders, and run in the same environment. Outputs, values that no
mapping reads and the generation of primary keys have no part in a key. -/
theorem lookupKey_eq_iff (st : Statement σ) :
    (∀ p q b c e f key other, st.lookupKey p b e = .ok key → st.lookupKey q c f = .ok other →
      (key = other ↔ b.offset = c.offset ∧ b.limit = c.limit ∧
        (∀ m ∈ st.mappings, m.mode ≠ .output →
          p.resolve m.property = q.resolve m.property) ∧ e = f)) ∧
    (∀ mappings, mappings.filter ParameterMapping.isRead =
        st.mappings.filter ParameterMapping.isRead →
      ∀ p b e, { st with mappings }.lookupKey p b e = st.lookupKey p b e) ∧
    (∀ name, (∀ m ∈ st.mappings, m.mode ≠ .output → (Parameters.splitPath m.property).1 ≠ name) →
      ∀ values value b e, st.lookupKey (.named (values.insert name value)) b e =
        st.lookupKey (.named values) b e) ∧
    ∀ keyGeneration p b e, { st with keyGeneration }.lookupKey p b e = st.lookupKey p b e := by
  refine ⟨?_, ?_, ?_, ?_⟩
  · intro p q b c e f key other hkey hother
    obtain ⟨xs, hxs, rfl⟩ := inputs_of_lookupKey hkey
    obtain ⟨ys, hys, rfl⟩ := inputs_of_lookupKey hother
    have hlength : xs.length = ys.length := by
      have hp := congrArg List.length hxs
      have hq := congrArg List.length hys
      simp only [readings, List.length_map] at hp hq
      omega
    have hinputs : xs = ys ↔ ∀ m ∈ st.mappings, m.mode ≠ .output →
        p.resolve m.property = q.resolve m.property := by
      rw [← readings_eq_iff, hxs, hys, map_ok_inj]
    have henvironment : (e.toList.map Value.text = f.toList.map Value.text) ↔ e = f := by
      cases e <;> cases f <;> simp
    have hparts : xs ++ e.toList.map Value.text = ys ++ f.toList.map Value.text ↔
        xs = ys ∧ e = f := by
      rw [← henvironment]
      exact ⟨fun h => List.append_inj h hlength, fun h => by rw [h.1, h.2]⟩
    rw [Key.ofComponents_inj, invocation_inj, hparts, hinputs]
    simp
  · intro mappings hread p b e
    have hreadings : { st with mappings }.readings p = st.readings p := by
      simp only [readings, reads, hread]
    exact lookupKey_congr hreadings rfl rfl b e
  · intro name hname values value b e
    refine lookupKey_congr ((readings_eq_iff st _ _).mpr fun m hm hmode => ?_) rfl rfl b e
    exact Parameters.resolve_insert (hname m hm hmode) value
  · intro keyGeneration p b e
    have hreadings : { st with keyGeneration }.readings p = st.readings p := rfl
    exact lookupKey_congr hreadings rfl rfl b e

/-- A window beyond the signed words has a key of its own. A value that no mapping reads has no part
in it, and an output can be left out. -/
theorem lookupKey_eq_iff_of_find :
    let find : Statement Unit :=
      { (Statement.ofCommand .select "users.find" "{call find(?, ?)}" : Statement Unit) with
        mappings := [⟨"id", .input⟩, ⟨"total", .output⟩] }
    let five : Dictionary Value := Dictionary.empty.insert "id" (.int 5)
    let far : RowBounds := ⟨9223372036854775808, 20⟩
    ∃ key other, find.lookupKey (.named five) far (some "dev") = .ok key ∧
      find.lookupKey (.named five) ⟨0, 20⟩ (some "dev") = .ok other ∧ key ≠ other ∧
      find.lookupKey (.named (five.insert "page" (.int 2))) far (some "dev") = .ok key ∧
      { find with mappings := [⟨"id", .input⟩] }.lookupKey (.named five) far (some "dev") =
        .ok key := by
  intro find five far
  obtain ⟨hiff, houtput, hname, -⟩ := lookupKey_eq_iff find
  have hkey : find.lookupKey (.named five) far (some "dev") =
      .ok (Key.ofComponents (find.invocation [.int 5] far (some "dev"))) := rfl
  have hother : find.lookupKey (.named five) ⟨0, 20⟩ (some "dev") =
      .ok (Key.ofComponents (find.invocation [.int 5] ⟨0, 20⟩ (some "dev"))) := rfl
  refine ⟨_, _, hkey, hother, ?_, ?_, ?_⟩
  · intro h
    have hoffset := ((hiff _ _ _ _ _ _ _ _ hkey hother).mp h).1
    exact absurd hoffset (by decide)
  · exact (hname "page" (by decide) five (.int 2) far (some "dev")).trans hkey
  · exact (houtput [⟨"id", .input⟩] rfl (.named five) far (some "dev")).trans hkey

private theorem append_environment_eq_iff {xs ys : List Value} {e f : Option String} (h : e ≠ f) :
    xs ++ e.toList.map .text = ys ++ f.toList.map .text ↔
      (∃ id, e = some id ∧ f = none ∧ ys = xs ++ [.text id]) ∨
        ∃ id, e = none ∧ f = some id ∧ xs = ys ++ [.text id] := by
  cases e with
  | none =>
    cases f with
    | none => exact absurd rfl h
    | some b => simp
  | some a =>
    cases f with
    | none => simp [eq_comm]
    | some b =>
      have hne : a ≠ b := fun hab => h (congrArg some hab)
      simp [hne]

/-- The keys of two invocations in different environments are equal only if one of the environments
is absent and the statement that runs in none reads one more value, which is the text of the other
environment. Present environments keep all keys apart, and so do statements that read the same
number of values. -/
theorem lookupKey_eq_iff_of_environment_ne {st other : Statement σ} {p q : Parameters}
    {b c : RowBounds} {e f : Option String} {key key' : Key} (hkey : st.lookupKey p b e = .ok key)
    (hkey' : other.lookupKey q c f = .ok key') (hne : e ≠ f) :
    (key = key' ↔
      (st.id = other.id ∧ b.offset = c.offset ∧ b.limit = c.limit ∧ st.sql = other.sql) ∧
        ((∃ id, e = some id ∧ f = none ∧
          other.readings q = st.readings p ++ [.ok (.text id)]) ∨
        ∃ id, e = none ∧ f = some id ∧
          st.readings p = other.readings q ++ [.ok (.text id)])) ∧
    (e.isSome → f.isSome → key ≠ key') ∧ (st.reads.length = other.reads.length → key ≠ key') := by
  obtain ⟨xs, hxs, rfl⟩ := inputs_of_lookupKey hkey
  obtain ⟨ys, hys, rfl⟩ := inputs_of_lookupKey hkey'
  have hlonger (xs ys : List Value) (id : String) :
      (ys.map .ok : List (Except PathFault Value)) = xs.map .ok ++ [.ok (.text id)] ↔
        ys = xs ++ [.text id] := by
    rw [← map_ok_inj, List.map_append, List.map_singleton]
  have hiff : Key.ofComponents (st.invocation xs b e) = Key.ofComponents (other.invocation ys c f) ↔
      (st.id = other.id ∧ b.offset = c.offset ∧ b.limit = c.limit ∧ st.sql = other.sql) ∧
        ((∃ id, e = some id ∧ f = none ∧
          other.readings q = st.readings p ++ [.ok (.text id)]) ∨
        ∃ id, e = none ∧ f = some id ∧
          st.readings p = other.readings q ++ [.ok (.text id)]) := by
    rw [Key.ofComponents_inj, invocation_inj, append_environment_eq_iff hne, hxs, hys]
    simp only [hlonger, and_assoc]
  refine ⟨hiff, ?_, ?_⟩
  · intro he hf h
    rcases (hiff.mp h).2 with ⟨id, -, rfl, -⟩ | ⟨id, rfl, -, -⟩
    · cases hf
    · cases he
  · intro hlength h
    have hreadings : (st.readings p).length = (other.readings q).length := by
      rw [readings, readings, List.length_map, List.length_map, hlength]
    rcases (hiff.mp h).2 with ⟨id, -, -, hlong⟩ | ⟨id, -, -, hlong⟩
    · have hl := congrArg List.length hlong
      rw [List.length_append, List.length_singleton] at hl
      omega
    · have hl := congrArg List.length hlong
      rw [List.length_append, List.length_singleton] at hl
      omega

/-- A query that reads the text `prod` has a key of its own in each of two environments. -/
theorem lookupKey_eq_iff_of_two_environments :
    let find : Statement Unit :=
      { (Statement.ofCommand .select "users.find" "SELECT ?" : Statement Unit) with
        mappings := [⟨"zone", .input⟩] }
    ∃ key key', find.lookupKey (.scalar (.text "prod")) .unbounded (some "dev") = .ok key ∧
      find.lookupKey (.scalar (.text "prod")) .unbounded (some "prod") = .ok key' ∧ key ≠ key' := by
  intro find
  have hkey : find.lookupKey (.scalar (.text "prod")) .unbounded (some "dev") = .ok
      (Key.ofComponents (find.invocation [.text "prod"] .unbounded (some "dev"))) := rfl
  have hkey' : find.lookupKey (.scalar (.text "prod")) .unbounded (some "prod") = .ok
      (Key.ofComponents (find.invocation [.text "prod"] .unbounded (some "prod"))) := rfl
  have hne : some "dev" ≠ some "prod" := by decide
  obtain ⟨-, hpresent, -⟩ := lookupKey_eq_iff_of_environment_ne hkey hkey' hne
  exact ⟨_, _, hkey, hkey', hpresent rfl rfl⟩

/-- Environments do not keep all keys apart: a query that reads the text `prod` in no environment
has the key of a query without inputs in the environment `prod`. -/
theorem exists_lookupKey_eq_of_environment_ne :
    ¬ ∀ (st other : Statement Unit) (p q : Parameters) (b c : RowBounds) (e f : Option String)
      (key key' : Key), st.lookupKey p b e = .ok key → other.lookupKey q c f = .ok key' → e ≠ f →
        key ≠ key' := by
  intro h
  let all : Statement Unit := Statement.ofCommand .select "users.find" "SELECT ?"
  let find : Statement Unit := { all with mappings := [⟨"zone", .input⟩] }
  have hne : none ≠ some "prod" := by decide
  exact h find all (.scalar (.text "prod")) .none .unbounded .unbounded none (some "prod") _ _ rfl
    rfl hne rfl

end Statement
end ResultCache
