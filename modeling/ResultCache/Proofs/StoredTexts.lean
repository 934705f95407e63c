import ResultCache.Proofs.Tokens
import ResultCache.Store

/-!
# Reading back stored rows

Rows are written whatever is in them, and read back only down to some depth.
-/

namespace ResultCache.Json

variable {α β : Type}

/-- No more than so many containers stand inside one another. -/
def Fits : Nat → Json → Prop
  | 0, .array _ | 0, .object _ => False
  | n + 1, .array items => ∀ item ∈ items, Fits n item
  | n + 1, .object fields => ∀ field ∈ fields, Fits n field.2
  | _, _ => True

/-- The fields of every object ascend, and every floating-point number is read back as it was. -/
inductive Faithful : Json → Prop
  | null : Faithful null
  | bool (b : Bool) : Faithful (bool b)
  | integer (n : JsonInteger) : Faithful (integer n)
  | float {x : Finite64} (same : scalar (writeFloat x.number) = .ok (float x, [])) :
    Faithful (float x)
  | string (s : String) : Faithful (string s)
  | array {items : List Json} (each : ∀ item ∈ items, Faithful item) : Faithful (array items)
  | object {fields : List (String × Json)} (ascending : fields.Pairwise fun a b => a.1 < b.1)
    (each : ∀ field ∈ fields, Faithful field.2) : Faithful (object fields)

/-! ## What reading comes to -/

/-- Reading answers the value, with what follows it, if the value fits; it stops for its depth if
not. -/
def Yields (fits : Prop) (result : Except Stop (α × List Char)) (x : α) (rest : List Char) : Prop :=
  fits ∧ result = .ok (x, rest) ∨ ¬ fits ∧ ∃ stop, result = .error stop ∧ stop.cause = .tooDeep

private theorem yields_ok (x : α) (rest : List Char) : Yields True (.ok (x, rest)) x rest :=
  .inl ⟨trivial, rfl⟩

private theorem yields_tooDeep {fits : Prop} (h : ¬ fits) (x : α) (rest : List Char) {stop : Stop}
    (hstop : stop.cause = .tooDeep) : Yields fits (.error stop) x rest :=
  .inr ⟨h, stop, rfl, hstop⟩

section Yields

variable {p q : Prop} {a : Except Stop (α × List Char)} {x : α} {y : β} {s t : List Char}
  {f : α × List Char → Except Stop (β × List Char)}

private theorem Yields.congr (h : Yields p a x s) (e : p ↔ q) : Yields q a x s := propext e ▸ h

private theorem Yields.bind (h : Yields p a x s) (next : Yields q (f (x, s)) y t) :
    Yields (p ∧ q) (a >>= f) y t := by
  rcases h with ⟨hp, rfl⟩ | ⟨hp, stop, rfl, hstop⟩
  · rcases next with ⟨hq, hok⟩ | ⟨hq, stop, herror, hstop⟩
    · exact .inl ⟨⟨hp, hq⟩, hok⟩
    · exact .inr ⟨fun hpq => hq hpq.2, stop, herror, hstop⟩
  · exact .inr ⟨fun hpq => hp hpq.1, stop, rfl, hstop⟩

private theorem Yields.bind_ok (h : Yields p a x s) (next : f (x, s) = .ok (y, t)) :
    Yields p (a >>= f) y t := by
  have hnext : Yields True (f (x, s)) y t := next ▸ yields_ok y t
  exact (h.bind hnext).congr (iff_of_eq (and_true p))

end Yields

/-! ## Values between commas -/

/-- A text whose first character begins a value or a field. -/
def Begins (s : List Char) : Prop :=
  ∃ c r, s = c :: r ∧ isSpace c = false ∧ c ≠ ',' ∧ c ≠ ']' ∧ c ≠ '\x7d'

/-- A loop that reads values between commas, up to a closing bracket. -/
structure Rounds (close : Char) (item : List Char → Except Stop (α × List Char))
    (rounds : Bool → Nat → List Char → Except Stop (List α × List Char)) : Prop where
  closes : ∀ rest, Closes (close :: rest)
  ended : ∀ first n rest, rounds first (n + 1) (close :: rest) = .ok ([], rest)
  first : ∀ n s, Begins s → rounds true (n + 1) s = do
    let (x, r) ← item s
    let (xs, r) ← rounds false n r
    pure (x :: xs, r)
  later : ∀ n s, Begins s → rounds false (n + 1) (',' :: s) = do
    let (x, r) ← item s
    let (xs, r) ← rounds false n r
    pure (x :: xs, r)

def between (write : α → List Char) : List α → List Char
  | [] => []
  | x :: xs => write x ++ xs.flatMap fun x => ',' :: write x

private theorem between_map (write : β → List Char) (f : α → β) (xs : List α) :
    between write (xs.map f) = between (fun x => write (f x)) xs := by
  cases xs with
  | nil => rfl
  | cons x xs => rw [List.map_cons, between, between, List.flatMap_map]

section Rounds

variable {close : Char} {item : List Char → Except Stop (α × List Char)}
  {rounds : Bool → Nat → List Char → Except Stop (List α × List Char)}
  (loop : Rounds close item rounds) {write : α → List Char} {fits : α → Prop} {xs : List α}
include loop

private theorem Rounds.closes_flatMap (write : α → List Char) (xs : List α) (rest : List Char) :
    Closes ((xs.flatMap fun x => ',' :: write x) ++ close :: rest) := by
  cases xs with
  | nil => exact loop.closes rest
  | cons x xs => exact closes_comma _

variable (begins : ∀ x ∈ xs, ∀ rest, Closes rest → Begins (write x ++ rest))
  (reads : ∀ x ∈ xs, ∀ rest, Closes rest → Yields (fits x) (item (write x ++ rest)) x rest)
  (rest : List Char)
include begins reads

private theorem Rounds.yields_later {n : Nat} (hn : xs.length < n) :
    Yields (∀ x ∈ xs, fits x)
      (rounds false n ((xs.flatMap fun x => ',' :: write x) ++ close :: rest)) xs rest := by
  induction xs generalizing n with
  | nil =>
    obtain ⟨n, rfl⟩ := Nat.exists_eq_succ_of_ne_zero (Nat.ne_zero_of_lt hn)
    rw [List.flatMap_nil, List.nil_append, loop.ended]
    exact (yields_ok [] rest).congr (by simp)
  | cons x xs ih =>
    obtain ⟨n, rfl⟩ := Nat.exists_eq_succ_of_ne_zero (Nat.ne_zero_of_lt hn)
    have hrest := loop.closes_flatMap write xs rest
    have hx := reads x List.mem_cons_self _ hrest
    have hxs := ih (fun y hy => begins y (List.mem_cons_of_mem x hy))
      (fun y hy => reads y (List.mem_cons_of_mem x hy)) (Nat.lt_of_succ_lt_succ hn)
    rw [List.flatMap_cons, List.cons_append, List.cons_append, List.append_assoc,
      loop.later n _ (begins x List.mem_cons_self _ hrest)]
    refine (hx.bind ?_).congr List.forall_mem_cons.symm
    exact hxs.bind_ok rfl

/-- The loop reads back what stands between commas, or stops where a value does not fit. -/
theorem Rounds.yields {n : Nat} (hn : xs.length < n) :
    Yields (∀ x ∈ xs, fits x) (rounds true n (between write xs ++ close :: rest)) xs rest := by
  obtain ⟨n, rfl⟩ := Nat.exists_eq_succ_of_ne_zero (Nat.ne_zero_of_lt hn)
  cases xs with
  | nil =>
    rw [between, List.nil_append, loop.ended]
    exact (yields_ok [] rest).congr (by simp)
  | cons x xs =>
    have hrest := loop.closes_flatMap write xs rest
    have hx := reads x List.mem_cons_self _ hrest
    have hxs := loop.yields_later (fun y hy => begins y (List.mem_cons_of_mem x hy))
      (fun y hy => reads y (List.mem_cons_of_mem x hy)) rest (Nat.lt_of_succ_lt_succ hn)
    rw [between, List.append_assoc, loop.first n _ (begins x List.mem_cons_self _ hrest)]
    refine (hx.bind ?_).congr List.forall_mem_cons.symm
    exact hxs.bind_ok rfl

end Rounds

private theorem skipSpaces_cons {c : Char} (hc : isSpace c = false) (r : List Char) :
    skipSpaces (c :: r) = c :: r := by
  rw [skipSpaces, List.dropWhile_cons_of_neg (by simp [hc])]

private theorem rounds_items (item : List Char → Except Stop (α × List Char)) :
    Rounds ']' item (itemRounds item) where
  closes := closes_bracket
  ended _ _ _ := rfl
  first n s hs := by
    obtain ⟨c, r, rfl, hspace, hcomma, hbracket, -⟩ := hs
    rw [itemRounds, skipSpaces_cons hspace]
    split <;> rename_i h
    · cases h
    · exact absurd (List.cons.inj h).1 hbracket
    · exact absurd (List.cons.inj h).1 hcomma
    · rfl
  later n s hs := by
    obtain ⟨c, r, rfl, hspace, hcomma, hbracket, -⟩ := hs
    rw [itemRounds, show skipSpaces (',' :: c :: r) = ',' :: c :: r from rfl]
    split <;> rename_i h
    · cases h
    · exact absurd (List.cons.inj h).1 (by decide)
    · cases h
      rw [if_neg Bool.false_ne_true, skipSpaces_cons hspace]
      split <;> rename_i h
      · cases h
      · exact absurd (List.cons.inj h).1 hbracket
      · rfl
    · exact absurd rfl (h _)

private theorem rounds_fields (value : List Char → Except Stop (α × List Char)) :
    Rounds '\x7d' (field value) (fieldRounds value) where
  closes := closes_brace
  ended _ _ _ := rfl
  first n s hs := by
    obtain ⟨c, r, rfl, hspace, hcomma, -, hbrace⟩ := hs
    rw [fieldRounds, skipSpaces_cons hspace]
    split <;> rename_i h
    · cases h
    · exact absurd (List.cons.inj h).1 hbrace
    · exact absurd (List.cons.inj h).1 hcomma
    · rfl
  later n s hs := by
    obtain ⟨c, r, rfl, hspace, hcomma, -, hbrace⟩ := hs
    rw [fieldRounds, show skipSpaces (',' :: c :: r) = ',' :: c :: r from rfl]
    split <;> rename_i h
    · cases h
    · exact absurd (List.cons.inj h).1 (by decide)
    · cases h
      rw [if_neg Bool.false_ne_true, skipSpaces_cons hspace]
      split <;> rename_i h
      · cases h
      · exact absurd (List.cons.inj h).1 hbrace
      · rfl
    · exact absurd rfl (h _)

private theorem length_le_length_between (write : α → List Char) (xs : List α) :
    xs.length ≤ (between write xs).length + 1 := by
  have hcommas : ∀ ys : List α, ys.length ≤ (ys.flatMap fun y => ',' :: write y).length := by
    intro ys
    induction ys with
    | nil => exact Nat.le_refl 0
    | cons y ys ih =>
      rw [List.flatMap_cons, List.length_append, List.length_cons, List.length_cons]
      omega
  cases xs with
  | nil => exact Nat.zero_le _
  | cons x xs =>
    have hxs := hcommas xs
    rw [between, List.length_append, List.length_cons]
    omega

private theorem length_lt_length_between (write : α → List Char) (xs : List α) (close : Char)
    (rest : List Char) : xs.length < (between write xs ++ close :: rest).length + 1 := by
  have hlength := length_le_length_between write xs
  rw [List.length_append, List.length_cons]
  omega

/-! ## Any value -/

private theorem writeItems_eq (items : List Json) : writeItems items = between write items := by
  induction items with
  | nil => rfl
  | cons item rest ih =>
    cases rest with
    | nil => rw [writeItems, between, List.flatMap_nil, List.append_nil]
    | cons next rest =>
      rw [writeItems, ih, between, between, List.flatMap_cons, List.cons_append]
      exact List.cons_ne_nil _ _

def writeField (field : String × Json) : List Char := writeString field.1 ++ ':' :: write field.2

private theorem writeFields_eq (fields : List (String × Json)) :
    writeFields fields = between writeField fields := by
  induction fields with
  | nil => rfl
  | cons field rest ih =>
    cases rest with
    | nil =>
      rw [writeFields, between, List.flatMap_nil, List.append_nil]
      rfl
    | cons next rest =>
      have hfields : writeFields (field :: next :: rest) =
          writeField field ++ ',' :: writeFields (next :: rest) := by
        rw [writeFields, writeField, List.append_assoc, List.cons_append]
        exact List.cons_ne_nil _ _
      rw [hfields, ih, between, between, List.flatMap_cons, List.cons_append]

private theorem scalar_head {c : Char} {r : List Char} {x : Json × List Char}
    (h : scalar (c :: r) = .ok x) :
    isSpace c = false ∧ c ≠ ',' ∧ c ≠ ']' ∧ c ≠ '\x7d' ∧ c ≠ '[' ∧ c ≠ '\x7b' := by
  refine ⟨?_, ?_, ?_, ?_, ?_, ?_⟩
  · cases hspace : isSpace c with
    | false => rfl
    | true =>
      rw [isSpace, Bool.or_eq_true, Bool.or_eq_true, Bool.or_eq_true, decide_eq_true_iff,
        decide_eq_true_iff, decide_eq_true_iff, decide_eq_true_iff] at hspace
      rcases hspace with ((rfl | rfl) | rfl) | rfl <;> cases h
  all_goals
    rintro rfl
    cases h

private theorem begins_of_scalar {s : List Char} {x : Json × List Char} (h : scalar s = .ok x) :
    Begins s := by
  cases s with
  | nil => cases h
  | cons c r =>
    obtain ⟨hspace, hcomma, hbracket, hbrace, -⟩ := scalar_head h
    exact ⟨c, r, rfl, hspace, hcomma, hbracket, hbrace⟩

private theorem value_of_scalar {s : List Char} {x : Json × List Char} (h : scalar s = .ok x)
    (n : Nat) :
    value n s = .ok x := by
  cases s with
  | nil => cases h
  | cons c r =>
    obtain ⟨hspace, -, -, -, hbracket, hbrace⟩ := scalar_head h
    cases n with
    | zero | succ n =>
      rw [value, skipSpaces_cons hspace]
      split <;> rename_i heq
      · exact absurd (List.cons.inj heq).1 hbracket
      · exact absurd (List.cons.inj heq).1 hbrace
      · exact h

def Simple : Json → Prop
  | .array _ | .object _ => False
  | _ => True

private theorem scalar_write {v : Json} (hv : v.Faithful) (simple : v.Simple) {rest : List Char}
    (hr : Closes rest) : scalar (v.write ++ rest) = .ok (v, rest) := by
  cases hv with
  | null => rfl
  | bool b => cases b <;> rfl
  | integer n => exact scalar_integer n hr
  | float same => exact (scalar_float_append same hr).1
  | string s => exact scalar_string s rest
  | array each => exact simple.elim
  | object ascending each => exact simple.elim

private theorem begins_write {v : Json} (hv : v.Faithful) {rest : List Char} (hr : Closes rest) :
    Begins (v.write ++ rest) := by
  have scalar_begins := fun simple => begins_of_scalar (scalar_write hv simple hr)
  cases hv with
  | array each => exact ⟨'[', _, rfl, by decide⟩
  | object ascending each => exact ⟨'\x7b', _, rfl, by decide⟩
  | null | bool | integer | float | string => exact scalar_begins trivial

private theorem begins_writeField (field : String × Json) (rest : List Char) :
    Begins (writeField field ++ rest) := ⟨'"', _, rfl, by decide⟩

private theorem yields_field {value : List Char → Except Stop (Json × List Char)} {fits : Prop}
    {entry : String × Json} {rest : List Char}
    (h : Yields fits (value (entry.2.write ++ rest)) entry.2 rest) :
    Yields fits (field value (writeField entry ++ rest)) entry rest := by
  have hfield : field value (writeField entry ++ rest) =
      value (entry.2.write ++ rest) >>= fun (x, r) => pure ((entry.1, x), r) := by
    rw [writeField, writeString, List.cons_append, List.cons_append, List.cons_append,
      List.append_assoc, List.append_assoc]
    change (stringBody (entry.1.toList.flatMap writeChar ++ '"' :: ':' :: (entry.2.write ++ rest))
      >>= _) = _
    rw [stringBody_writeString]
    rfl
  rw [hfield]
  exact h.bind_ok rfl

private theorem yields_items {item : List Char → Except Stop (α × List Char)}
    {write : α → List Char} {fits : α → Prop} {xs : List α}
    (begins : ∀ x ∈ xs, ∀ rest, Closes rest → Begins (write x ++ rest))
    (reads : ∀ x ∈ xs, ∀ rest, Closes rest → Yields (fits x) (item (write x ++ rest)) x rest)
    (rest : List Char) :
    Yields (∀ x ∈ xs, fits x) (items item (between write xs ++ ']' :: rest)) xs rest :=
  (rounds_items item).yields begins reads rest (length_lt_length_between write xs ']' rest)

private theorem yields_fields {n : Nat} {entries : List (String × Json)}
    (ascending : entries.Pairwise fun a b => a.1 < b.1)
    (reads : ∀ entry ∈ entries, ∀ rest, Closes rest →
      Yields (Fits n entry.2) (value n (entry.2.write ++ rest)) entry.2 rest)
    (rest : List Char) :
    Yields (∀ entry ∈ entries, Fits n entry.2)
      (fields (value n) (writeFields entries ++ '\x7d' :: rest)) ⟨entries, ascending⟩ rest := by
  have hrounds := (rounds_fields (value n)).yields
    (fun entry _ rest _ => begins_writeField entry rest)
    (fun entry he rest hr => yields_field (reads entry he rest hr)) rest
    (length_lt_length_between writeField entries '\x7d' rest)
  rw [writeFields_eq, fields]
  refine hrounds.bind_ok ?_
  rw [← Dictionary.ofList_of_ascending ascending]
  rfl

private theorem yields_value_of_simple {v : Json} (hv : v.Faithful) (simple : v.Simple) (n : Nat)
    {rest : List Char} (hr : Closes rest) :
    Yields (Fits n v) (value n (v.write ++ rest)) v rest := by
  have hfits : True ↔ Fits n v := by
    cases hv with
    | array each => exact simple.elim
    | object ascending each => exact simple.elim
    | null | bool | integer | float | string => cases n <;> exact Iff.rfl
  rw [value_of_scalar (scalar_write hv simple hr) n]
  exact (yields_ok v rest).congr hfits

theorem yields_value (n : Nat) {v : Json} (hv : v.Faithful) {rest : List Char}
    (hr : Closes rest) : Yields (Fits n v) (value n (v.write ++ rest)) v rest := by
  induction n generalizing v rest with
  | zero =>
    have scalar_yields := fun simple => yields_value_of_simple hv simple 0 hr
    cases hv with
    | array each => exact yields_tooDeep id _ _ rfl
    | object ascending each => exact yields_tooDeep id _ _ rfl
    | null | bool | integer | float | string => exact scalar_yields trivial
  | succ n ih =>
    have scalar_yields := fun simple => yields_value_of_simple hv simple (n + 1) hr
    cases hv with
    | @array items each =>
      have hitems := yields_items (fun item hi _ hr => begins_write (each item hi) hr)
        (fun item hi _ hr => ih (each item hi) hr) rest
      rw [write, writeItems_eq, List.cons_append, List.append_assoc]
      exact hitems.bind_ok rfl
    | @object entries ascending each =>
      have hfields := yields_fields ascending (fun entry he _ hr => ih (each entry he) hr) rest
      rw [write, List.cons_append, List.append_assoc]
      exact hfields.bind_ok rfl
    | null | bool | integer | float | string => exact scalar_yields trivial

/-! ## Rows -/

private theorem yields_row (n : Nat) {r : Row} (hr : (ofRow r).Faithful) (rest : List Char) :
    Yields (Fits n (ofRow r)) (row n ((ofRow r).write ++ rest)) r rest := by
  cases hr with
  | object ascending each =>
    cases n with
    | zero => exact yields_tooDeep id _ _ rfl
    | succ n =>
      have hfields := yields_fields ascending
        (fun entry he _ hr => yields_value n (each entry he) hr) rest
      rw [ofRow, write, List.cons_append, List.append_assoc]
      exact hfields

theorem yields_rows (n : Nat) {rs : List Row} (hr : ∀ r ∈ rs, (ofRow r).Faithful)
    (rest : List Char) :
    Yields (Fits n (ofRows rs)) (rows n ((ofRows rs).write ++ rest)) rs rest := by
  cases n with
  | zero => exact yields_tooDeep id _ _ rfl
  | succ n =>
    have hitems := yields_items (fun r hm _ hrest => begins_write (hr r hm) hrest)
      (fun r hm rest _ => yields_row n (hr r hm) rest) rest
    have hfits : (∀ r ∈ rs, Fits n (ofRow r)) ↔ Fits (n + 1) (ofRows rs) :=
      List.forall_mem_map.symm
    have hwrite : writeItems (rs.map ofRow) = between (fun r => (ofRow r).write) rs := by
      rw [writeItems_eq, between_map]
    rw [ofRows, write, hwrite, List.cons_append, List.append_assoc]
    exact hitems.congr hfits

/-! ## Stored texts -/

theorem decodeStored_of_yields {read : Reader α} {fits : Prop} {v : Json} {x : α}
    (h : Yields fits (read maxDepth (v.write ++ [])) x []) :
    (fits → decodeStored read v.compact = .ok x) ∧
      (¬ fits → ∃ fault, fault.cause = .tooDeep ∧
        decodeStored read v.compact = .error (.cache (.unreadable fault))) := by
  have htext : v.compact.toList = v.write ++ [] := by
    rw [compact, String.toList_ofList, List.append_nil]
  rw [← htext] at h
  rcases h with ⟨hfits, hread⟩ | ⟨hfits, stop, hread, hstop⟩
  · refine ⟨fun _ => ?_, fun h => absurd hfits h⟩
    rw [decodeStored, decode, decodeWithin_of_ok hread]
    rfl
  · obtain ⟨fault, hdecode, hcause⟩ := decodeWithin_of_error hread
    refine ⟨fun h => absurd h hfits, fun _ => ⟨fault, hcause.trans hstop, ?_⟩⟩
    rw [decodeStored, decode, hdecode]
    rfl

/-- A faithful value is read back from its stored text, or is refused for its depth. -/
theorem decodeStored_value {v : Json} (hv : v.Faithful) :
    (Fits maxDepth v → decodeStored value v.compact = .ok v) ∧
      (¬ Fits maxDepth v → ∃ fault, fault.cause = .tooDeep ∧
        decodeStored value v.compact = .error (.cache (.unreadable fault))) :=
  decodeStored_of_yields (yields_value maxDepth hv closes_nil)

theorem decodeStored_ofRows {rs : List Row} (hr : ∀ r ∈ rs, (ofRow r).Faithful) :
    (Fits maxDepth (ofRows rs) → decodeStored rows (ofRows rs).compact = .ok rs) ∧
      (¬ Fits maxDepth (ofRows rs) → ∃ fault, fault.cause = .tooDeep ∧
        decodeStored rows (ofRows rs).compact = .error (.cache (.unreadable fault))) :=
  decodeStored_of_yields (yields_rows maxDepth hr [])

end ResultCache.Json
