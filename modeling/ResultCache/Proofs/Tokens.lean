import ResultCache.Json.Decode

/-!
# Reading back the tokens that are written

What a number is read as does not depend on what follows it.
-/

namespace ResultCache.Json

/-- What may follow a value in a compact text: nothing, a comma or a closing bracket. -/
def Closes (rest : List Char) : Prop :=
  ∀ c, rest.head? = some c → c = ',' ∨ c = ']' ∨ c = '\x7d'

theorem closes_nil : Closes [] := nofun

theorem closes_comma (rest : List Char) : Closes (',' :: rest) := by
  rintro c ⟨⟩
  exact .inl rfl

theorem closes_bracket (rest : List Char) : Closes (']' :: rest) := by
  rintro c ⟨⟩
  exact .inr (.inl rfl)

theorem closes_brace (rest : List Char) : Closes ('\x7d' :: rest) := by
  rintro c ⟨⟩
  exact .inr (.inr rfl)

private theorem Closes.isDigit {c : Char} {rest : List Char} (h : Closes (c :: rest)) :
    c.isDigit = false := by
  rcases h c rfl with rfl | rfl | rfl <;> rfl

/-! ## Digits -/

section Digits

variable {rest : List Char} (hr : Closes rest)
include hr

private theorem takeDigits_append (significand count : Nat) (s : List Char) :
    takeDigits significand count (s ++ rest) =
      ((takeDigits significand count s).1, (takeDigits significand count s).2.1,
        (takeDigits significand count s).2.2 ++ rest) := by
  induction s generalizing significand count with
  | nil =>
    cases rest with
    | nil => rfl
    | cons c r => simp [takeDigits, hr.isDigit]
  | cons c r ih =>
    rw [List.cons_append, takeDigits, takeDigits]
    split
    · exact ih _ _
    · rfl

private theorem dropWhile_isDigit_append (s : List Char) :
    (s ++ rest).dropWhile Char.isDigit = s.dropWhile Char.isDigit ++ rest := by
  induction s with
  | nil =>
    cases rest with
    | nil => rfl
    | cons c r => simp [hr.isDigit]
  | cons c r ih => cases hc : c.isDigit <;> simp [hc, ih]

private theorem takeWhile_isDigit_append (s : List Char) :
    (s ++ rest).takeWhile Char.isDigit = s.takeWhile Char.isDigit := by
  induction s with
  | nil =>
    cases rest with
    | nil => rfl
    | cons c r => simp [hr.isDigit]
  | cons c r ih => cases hc : c.isDigit <;> simp [hc, ih]

private theorem any_isDigit_append (s : List Char) :
    (s ++ rest).head?.any Char.isDigit = s.head?.any Char.isDigit := by
  cases s with
  | nil =>
    cases rest with
    | nil => rfl
    | cons c r => simp [hr.isDigit]
  | cons c r => rfl

end Digits

/-! ## Numbers before other text -/

/-- A reader that reads a whole text reads the same value where more follows. -/
def Whole (read : List Char → Except Stop (Json × List Char)) : Prop :=
  ∀ s v, read s = .ok (v, []) → ∀ rest, Closes rest → read (s ++ rest) = .ok (v, rest)

/-- What a number comes to that ends here. -/
def endNumber (found : Option Json) (rest : List Char) : Except Stop (Json × List Char) :=
  found.elim (.error ⟨.numberOutOfRange, rest, 0⟩) fun v => .ok (v, rest)

private theorem endNumber_eq_ok {found : Option Json} {s rest : List Char} {v : Json}
    (h : endNumber found s = .ok (v, rest)) : found = some v ∧ s = rest := by
  cases found with
  | none => cases h
  | some w =>
    cases h
    exact ⟨rfl, rfl⟩

private theorem elim_scaled_eq (negative : Bool) (significand : Nat) (exponent : Int)
    (rest : List Char) :
    (scaled negative significand exponent).elim
        (.error ⟨.numberOutOfRange, rest, 0⟩ : Except Stop (Json × List Char))
        (fun x => .ok (.float x, rest)) =
      endNumber ((scaled negative significand exponent).map .float) rest := by
  cases scaled negative significand exponent <;> rfl

private theorem whole_exponentDigits (negative : Bool) (significand : Nat) (start : Int)
    (down : Bool)
    (exponent : Nat) : Whole (exponentPart.digits negative significand start down exponent) := by
  intro s v h rest hr
  induction s generalizing exponent with
  | nil =>
    rw [exponentPart.digits, floatStep_eq, elim_scaled_eq] at h
    obtain ⟨hfound, -⟩ := endNumber_eq_ok h
    cases rest with
    | nil => rwa [List.nil_append, exponentPart.digits, floatStep_eq, elim_scaled_eq]
    | cons c r =>
      rw [List.nil_append, exponentPart.digits, hr.isDigit, if_neg Bool.false_ne_true, floatStep_eq,
        elim_scaled_eq, hfound]
      rfl
  | cons c r ih =>
    rw [exponentPart.digits] at h
    rw [List.cons_append, exponentPart.digits]
    cases hc : c.isDigit with
    | false =>
      rw [hc, if_neg Bool.false_ne_true, floatStep_eq, elim_scaled_eq] at h
      exact absurd (endNumber_eq_ok h).2 (List.cons_ne_nil c r)
    | true =>
      rw [hc, if_pos rfl] at h
      rw [if_pos rfl]
      dsimp only at h ⊢
      by_cases hnext : 10 * exponent + (c.toNat - 48) < 0x80000000
      · rw [if_pos hnext] at h ⊢
        exact ih _ h
      · rw [if_neg hnext] at h ⊢
        by_cases hover : significand ≠ 0 ∧ ¬ down = true
        · rw [if_pos hover] at h
          cases h
        · rw [if_neg hover, floatStep_eq, elim_scaled_eq] at h
          obtain ⟨hfound, hnil⟩ := endNumber_eq_ok h
          rw [if_neg hover, dropWhile_isDigit_append hr r, hnil, floatStep_eq, elim_scaled_eq,
            hfound]
          rfl

private theorem exponentPart_cons (negative : Bool) (significand : Nat) (start : Int) {c : Char}
    (hplus : c ≠ '+') (hminus : c ≠ '-') (r : List Char) :
    exponentPart negative significand start (c :: r) =
      if c.isDigit then exponentPart.digits negative significand start false (c.toNat - 48) r
      else .error ⟨.invalidNumber, c :: r, 1⟩ := by
  simp [exponentPart, hplus, hminus]

private theorem whole_exponentPart (negative : Bool) (significand : Nat) (start : Int) :
    Whole (exponentPart negative significand start) := by
  intro s v h rest hr
  have digits : ∀ (down : Bool) (c : Char) (r : List Char),
      (if c.isDigit then exponentPart.digits negative significand start down (c.toNat - 48) r
        else .error ⟨.invalidNumber, c :: r, 1⟩) = .ok (v, []) →
      (if c.isDigit then
          exponentPart.digits negative significand start down (c.toNat - 48) (r ++ rest)
        else .error ⟨.invalidNumber, c :: (r ++ rest), 1⟩) = .ok (v, rest) := by
    intro down c r hc
    split at hc
    · rw [if_pos ‹_›]
      exact whole_exponentDigits negative significand start down _ r v hc rest hr
    · cases hc
  cases s with
  | nil => cases h
  | cons c r =>
    rw [List.cons_append]
    by_cases hplus : c = '+'
    · subst hplus
      cases r with
      | nil => cases h
      | cons c r => exact digits false c r h
    · by_cases hminus : c = '-'
      · subst hminus
        cases r with
        | nil => cases h
        | cons c r => exact digits true c r h
      · rw [exponentPart_cons _ _ _ hplus hminus] at h ⊢
        exact digits false c r h

private theorem exponentOrEnd_nil (negative : Bool) (significand : Nat) (exponent : Int) :
    exponentOrEnd negative significand exponent [] =
      endNumber ((scaled negative significand exponent).map .float) [] := by
  rw [← elim_scaled_eq, ← floatStep_eq]
  rfl

private theorem exponentOrEnd_cons (negative : Bool) (significand : Nat) (exponent : Int) {c : Char}
    (hsmall : c ≠ 'e') (hlarge : c ≠ 'E') (r : List Char) :
    exponentOrEnd negative significand exponent (c :: r) =
      endNumber ((scaled negative significand exponent).map .float) (c :: r) := by
  simp [exponentOrEnd, hsmall, hlarge, floatStep_eq, elim_scaled_eq]

private theorem Closes.ne_mark {c : Char} {rest : List Char} (h : Closes (c :: rest)) :
    c ≠ 'e' ∧ c ≠ 'E' ∧ c ≠ '.' := by
  rcases h c rfl with rfl | rfl | rfl <;> decide

private theorem whole_exponentOrEnd (negative : Bool) (significand : Nat) (exponent : Int) :
    Whole (exponentOrEnd negative significand exponent) := by
  intro s v h rest hr
  cases s with
  | nil =>
    rw [exponentOrEnd_nil] at h
    obtain ⟨hfound, -⟩ := endNumber_eq_ok h
    cases rest with
    | nil => rwa [List.nil_append, exponentOrEnd_nil]
    | cons c r =>
      obtain ⟨hsmall, hlarge, -⟩ := hr.ne_mark
      rw [List.nil_append, exponentOrEnd_cons _ _ _ hsmall hlarge, hfound]
      rfl
  | cons c r =>
    rw [List.cons_append]
    by_cases hsmall : c = 'e'
    · subst hsmall
      exact whole_exponentPart negative significand exponent r v h rest hr
    · by_cases hlarge : c = 'E'
      · subst hlarge
        exact whole_exponentPart negative significand exponent r v h rest hr
      · rw [exponentOrEnd_cons _ _ _ hsmall hlarge] at h
        exact absurd (endNumber_eq_ok h).2 (List.cons_ne_nil c r)

private theorem whole_fractionPart (negative : Bool) (significand : Nat) (start : Int) :
    Whole (fractionPart negative significand start) := by
  intro s v h rest hr
  unfold fractionPart at h ⊢
  rw [takeDigits_append hr]
  revert h
  rcases takeDigits significand 0 s with ⟨significand, count, left⟩
  intro h
  dsimp only at h ⊢
  rw [any_isDigit_append hr, dropWhile_isDigit_append hr]
  split at h
  · rw [if_pos ‹_›]
    exact whole_exponentOrEnd negative significand _ _ v h rest hr
  · rw [if_neg ‹_›]
    split at h
    · split at h <;> cases h
    · rw [if_neg ‹_›]
      exact whole_exponentOrEnd negative significand _ _ v h rest hr

/-- The number of some integral digits alone. A negative zero and what is below the least integer
are no integers. -/
def integral? (negative : Bool) (significand : Nat) : Option Json :=
  if negative ∧ (significand = 0 ∨ -(significand : Int) < Int64.minValue.toInt) then
    (scaled true significand 0).map .float
  else (JsonInteger.ofInt? (if negative then -(significand : Int) else significand)).map .integer

private theorem numberEnd_eq (negative : Bool) (significand : Nat) {s : List Char}
    (hs : ∀ c, s.head? = some c → c ≠ 'e' ∧ c ≠ 'E' ∧ c ≠ '.') :
    numberEnd negative significand s = endNumber (integral? negative significand) s := by
  unfold numberEnd integral?
  split
  · exact absurd rfl (hs '.' rfl).2.2
  · exact absurd rfl (hs 'e' rfl).1
  · exact absurd rfl (hs 'E' rfl).2.1
  · split
    · rw [floatStep_eq, elim_scaled_eq]
    · cases JsonInteger.ofInt? (if negative then -(significand : Int) else significand) <;> rfl

private theorem whole_numberEnd (negative : Bool) (significand : Nat) :
    Whole (numberEnd negative significand) := by
  intro s v h rest hr
  cases s with
  | nil =>
    rw [numberEnd_eq _ _ (by simp)] at h
    obtain ⟨hfound, -⟩ := endNumber_eq_ok h
    have hmarks : ∀ c, rest.head? = some c → c ≠ 'e' ∧ c ≠ 'E' ∧ c ≠ '.' := by
      intro c hc
      cases rest with
      | nil => cases hc
      | cons d r =>
        cases hc
        exact hr.ne_mark
    rw [List.nil_append, numberEnd_eq _ _ hmarks, hfound]
    rfl
  | cons c r =>
    rw [List.cons_append]
    by_cases hpoint : c = '.'
    · subst hpoint
      exact whole_fractionPart negative significand 0 r v h rest hr
    by_cases hsmall : c = 'e'
    · subst hsmall
      exact whole_exponentPart negative significand 0 r v h rest hr
    by_cases hlarge : c = 'E'
    · subst hlarge
      exact whole_exponentPart negative significand 0 r v h rest hr
    have hmarks : ∀ d, (c :: r).head? = some d → d ≠ 'e' ∧ d ≠ 'E' ∧ d ≠ '.' := by
      rintro d ⟨⟩
      exact ⟨hsmall, hlarge, hpoint⟩
    rw [numberEnd_eq _ _ hmarks] at h
    exact absurd (endNumber_eq_ok h).2 (List.cons_ne_nil c r)

/-- The rest of a number after integral digits that did not fit. -/
def afterDropped (negative : Bool) (significand dropped : Nat) (s : List Char) :
    Except Stop (Json × List Char) :=
  match s with
  | '.' :: r => fractionPart negative significand dropped r
  | r => exponentOrEnd negative significand dropped r

private theorem whole_afterDropped (negative : Bool) (significand dropped : Nat) :
    Whole (afterDropped negative significand dropped) := by
  intro s v h rest hr
  have other : ∀ t, (∀ c, t.head? = some c → c ≠ '.') →
      afterDropped negative significand dropped t =
        exponentOrEnd negative significand dropped t := by
    intro t ht
    unfold afterDropped
    split
    · exact absurd rfl (ht '.' rfl)
    · rfl
  have hfollow : ∀ c, rest.head? = some c → c ≠ '.' := by
    intro c hc
    cases rest with
    | nil => cases hc
    | cons d r =>
      cases hc
      exact hr.ne_mark.2.2
  cases s with
  | nil =>
    rw [other [] (by simp)] at h
    rw [List.nil_append, other rest hfollow]
    exact whole_exponentOrEnd negative significand dropped [] v h rest hr
  | cons c r =>
    rw [List.cons_append]
    by_cases hpoint : c = '.'
    · subst hpoint
      exact whole_fractionPart negative significand dropped r v h rest hr
    · have hne : ∀ t d, (c :: t).head? = some d → d ≠ '.' := by
        rintro t d ⟨⟩
        exact hpoint
      rw [other _ (hne _)] at h ⊢
      exact whole_exponentOrEnd negative significand dropped (c :: r) v h rest hr

private theorem number_zero (negative : Bool) (r : List Char) :
    number negative ('0' :: r) =
      if r.head?.any Char.isDigit then
        .error ⟨.invalidNumber, r, if r.isEmpty then 0 else 1⟩
      else numberEnd negative 0 r := rfl

private theorem number_cons (negative : Bool) {c : Char} (hzero : c ≠ '0')
    (hdigit : c.isDigit = true) (r : List Char) {significand count : Nat} {left : List Char}
    (htake : takeDigits (c.toNat - 48) 0 r = (significand, count, left)) :
    number negative (c :: r) =
      if (left.takeWhile Char.isDigit).isEmpty then numberEnd negative significand left
      else afterDropped negative significand (left.takeWhile Char.isDigit).length
        (left.drop (left.takeWhile Char.isDigit).length) := by
  unfold number
  split
  · rename_i h
    cases h
  · rename_i h
    cases h
    exact absurd rfl hzero
  · rename_i h
    cases h
    rw [if_neg (by simp [hdigit]), htake]
    rfl

theorem whole_number (negative : Bool) : Whole (number negative) := by
  intro s v h rest hr
  cases s with
  | nil => cases h
  | cons c r =>
    rw [List.cons_append]
    by_cases hzero : c = '0'
    · subst hzero
      rw [number_zero] at h
      rw [number_zero, any_isDigit_append hr]
      split at h
      · cases h
      · rw [if_neg ‹_›]
        exact whole_numberEnd negative 0 r v h rest hr
    cases hdigit : c.isDigit with
    | false => simp [number, hdigit] at h
    | true =>
      rcases htake : takeDigits (c.toNat - 48) 0 r with ⟨significand, count, left⟩
      have happend := takeDigits_append hr (c.toNat - 48) 0 r
      rw [htake] at happend
      rw [number_cons negative hzero hdigit r htake] at h
      rw [number_cons negative hzero hdigit (r ++ rest) happend, takeWhile_isDigit_append hr]
      split at h
      · rw [if_pos ‹_›]
        exact whole_numberEnd negative _ _ v h rest hr
      · rw [if_neg ‹_›, List.drop_append_of_le_length (List.takeWhile_prefix _).length_le]
        exact whole_afterDropped negative _ _ _ v h rest hr

private theorem scalar_cons_of_isDigit {c : Char} (hc : c.isDigit = true) (r : List Char) :
    scalar (c :: r) = number false (c :: r) := by
  have hne : c ≠ 'n' ∧ c ≠ 't' ∧ c ≠ 'f' ∧ c ≠ '-' ∧ c ≠ '"' := by
    refine ⟨?_, ?_, ?_, ?_, ?_⟩ <;> (rintro rfl; exact absurd hc (by decide))
  unfold scalar
  split <;> rename_i h
  · cases h
  · exact absurd (List.cons.inj h).1 hne.1
  · exact absurd (List.cons.inj h).1 hne.2.1
  · exact absurd (List.cons.inj h).1 hne.2.2.1
  · exact absurd (List.cons.inj h).1 hne.2.2.2.1
  · exact absurd (List.cons.inj h).1 hne.2.2.2.2
  · cases h
    exact if_pos hc

theorem scalar_float_append {s : List Char} {x : Finite64} (h : scalar s = .ok (.float x, []))
    {rest : List Char} (hr : Closes rest) :
    scalar (s ++ rest) = .ok (.float x, rest) ∧
      ∃ c r, s = c :: r ∧ (c = '-' ∨ c.isDigit = true) := by
  unfold scalar at h
  split at h
  · cases h
  · rename_i r
    cases hw : word ['u', 'l', 'l'] r <;> rw [hw] at h <;> cases h
  · rename_i r
    cases hw : word ['r', 'u', 'e'] r <;> rw [hw] at h <;> cases h
  · rename_i r
    cases hw : word ['a', 'l', 's', 'e'] r <;> rw [hw] at h <;> cases h
  · rename_i r
    exact ⟨whole_number true r _ h rest hr, '-', r, rfl, .inl rfl⟩
  · rename_i r
    cases hb : stringBody r <;> rw [hb] at h <;> cases h
  · rename_i c r _ _ _ _ _
    split at h
    · rename_i hc
      refine ⟨?_, c, r, rfl, .inr hc⟩
      rw [List.cons_append, scalar_cons_of_isDigit hc]
      exact whole_number false (c :: r) _ h rest hr
    · cases h

/-! ## Integers -/

private theorem le_ofDigitChars (s : List Char) (significand : Nat) :
    significand ≤ Nat.ofDigitChars 10 s significand := by
  rw [Nat.ofDigitChars_eq_ofDigitChars_zero]
  have hpow : 0 < 10 ^ s.length := Nat.pow_pos (by decide)
  exact Nat.le_trans (Nat.le_mul_of_pos_left significand hpow) (Nat.le_add_right _ _)

private theorem takeDigits_of_lt {s : List Char} (digits : ∀ c ∈ s, c.isDigit = true)
    {significand : Nat} (count : Nat) (h : Nat.ofDigitChars 10 s significand < UInt64.size) :
    takeDigits significand count s =
      (Nat.ofDigitChars 10 s significand, count + s.length, []) := by
  induction s generalizing significand count with
  | nil => simp [takeDigits]
  | cons c r ih =>
    rw [Nat.ofDigitChars_cons, show '0'.toNat = 48 from rfl] at h ⊢
    have hnext := Nat.lt_of_le_of_lt (le_ofDigitChars r _) h
    have hc := digits c List.mem_cons_self
    rw [takeDigits, if_pos ⟨hc, hnext⟩, ih (fun d hd => digits d (List.mem_cons_of_mem _ hd)) _ h]
    rw [List.length_cons, Nat.add_assoc, Nat.add_comm 1]

private theorem head_toDigits_ne_zero {n : Nat} (hn : 0 < n) :
    ∀ c, (Nat.toDigits 10 n).head? = some c → c ≠ '0' := by
  induction n using Nat.base_induction 10 (by decide) with
  | single m hm =>
    rw [Nat.toDigits_of_lt_base hm]
    rintro c ⟨⟩
    rw [Ne, Nat.digitChar_eq_zero]
    omega
  | digit m k hk hm ih =>
    rw [← Nat.toDigits_append_toDigits (by decide) hm hk]
    cases hs : Nat.toDigits 10 m with
    | nil => exact absurd hs Nat.toDigits_ne_nil
    | cons c r =>
      rw [hs] at ih
      exact ih hm

theorem number_toDigits (negative : Bool) {n : Nat} (hn : n < UInt64.size) :
    number negative (Nat.toDigits 10 n) = numberEnd negative n [] := by
  have digits : ∀ c ∈ Nat.toDigits 10 n, c.isDigit = true := fun c hc =>
    Nat.isDigit_of_mem_toDigits (by decide) (by decide) hc
  rcases Nat.eq_zero_or_pos n with rfl | hpos
  · rw [Nat.toDigits_zero]
    have hnone : ¬ (([] : List Char).head?.any Char.isDigit = true) := by simp
    rw [number_zero, if_neg hnone]
  · have hvalue : Nat.ofDigitChars 10 (Nat.toDigits 10 n) 0 = n :=
      Nat.ofDigitChars_ten_toDigits
    have hhead := head_toDigits_ne_zero hpos
    cases hs : Nat.toDigits 10 n with
    | nil => exact absurd hs Nat.toDigits_ne_nil
    | cons c r =>
      rw [hs] at digits hvalue hhead
      rw [Nat.ofDigitChars_cons, show '0'.toNat = 48 from rfl, Nat.mul_zero, Nat.zero_add] at hvalue
      have htake := takeDigits_of_lt (fun d hd => digits d (List.mem_cons_of_mem _ hd)) 0
        (hvalue.symm ▸ hn)
      rw [number_cons negative (hhead c rfl) (digits c List.mem_cons_self) r htake]
      rw [List.takeWhile_nil, if_pos List.isEmpty_nil, hvalue]

private theorem ofInt?_val (n : JsonInteger) : JsonInteger.ofInt? n.val = some n :=
  dif_pos n.inRange

theorem scalar_integer (n : JsonInteger) {rest : List Char} (hr : Closes rest) :
    scalar ((toString n.val).toList ++ rest) = .ok (.integer n, rest) := by
  have hrange := n.inRange
  have hn := ofInt?_val n
  cases hval : n.val with
  | ofNat m =>
    rw [hval] at hrange hn
    have hm : m < UInt64.size := Int.ofNat_lt.mp hrange.2
    have hread : number false (Nat.toDigits 10 m) = .ok (.integer n, []) := by
      have hfound : integral? false m = some (.integer n) := by
        have hn' : JsonInteger.ofInt? (m : Int) = some n := hn
        simp only [integral?, Bool.false_eq_true, false_and, if_false, hn', Option.map_some]
      rw [number_toDigits false hm, numberEnd_eq _ _ (by simp), hfound]
      rfl
    have happend := whole_number false _ _ hread rest hr
    have hlist : (toString (Int.ofNat m)).toList = Nat.toDigits 10 m := Nat.toList_repr
    rw [hlist]
    cases hs : Nat.toDigits 10 m with
    | nil => exact absurd hs Nat.toDigits_ne_nil
    | cons c r =>
      have hc : c.isDigit = true :=
        Nat.isDigit_of_mem_toDigits (by decide) (by decide) (hs ▸ List.mem_cons_self)
      rw [hs] at happend
      rw [List.cons_append, scalar_cons_of_isDigit hc]
      exact happend
  | negSucc m =>
    rw [hval] at hrange hn
    have hm : m + 1 < UInt64.size := by
      rw [Int64.toInt_minValue, Int.negSucc_eq] at hrange
      have hsize : UInt64.size = 2 ^ 64 := rfl
      omega
    have hread : number true (Nat.toDigits 10 (m + 1)) = .ok (.integer n, []) := by
      have hfound : integral? true (m + 1) = some (.integer n) := by
        have hin :
            ¬ (true = true ∧ (m + 1 = 0 ∨ -((m + 1 : Nat) : Int) < Int64.minValue.toInt)) := by
          rintro ⟨-, hzero | hless⟩
          · cases hzero
          · exact absurd hrange.1 (Int.not_le.mpr hless)
        have hn' : JsonInteger.ofInt? (-((m + 1 : Nat) : Int)) = some n := hn
        rw [integral?, if_neg hin, if_pos rfl, hn', Option.map_some]
      rw [number_toDigits true hm, numberEnd_eq _ _ (by simp), hfound]
      rfl
    have hlist : (toString (Int.negSucc m)).toList = '-' :: Nat.toDigits 10 (m + 1) := by
      change ("-" ++ Nat.repr (m + 1)).toList = _
      rw [String.toList_append, Nat.toList_repr]
      rfl
    rw [hlist]
    exact whole_number true _ _ hread rest hr

/-! ## Strings -/

private theorem hexValue?_hexDigit {n : Nat} (hn : n < 16) :
    Bytes.hexValue? (Bytes.hexDigit n) = some n := by
  have all : ∀ n, n < 16 → Bytes.hexValue? (Bytes.hexDigit n) = some n := by decide
  exact all n hn

private theorem hexEscape_control {c : Char} (hc : c.toNat < 0x20) (rest : List Char) :
    hexEscape ('0' :: '0' :: Bytes.hexDigit (c.toNat / 16) :: Bytes.hexDigit (c.toNat % 16) ::
      rest) = .ok (c.toNat, rest) := by
  have hzero : Bytes.hexValue? '0' = some 0 := rfl
  have hhigh := hexValue?_hexDigit (show c.toNat / 16 < 16 by omega)
  have hlow := hexValue?_hexDigit (show c.toNat % 16 < 16 by omega)
  have hcode : 4096 * 0 + 256 * 0 + 16 * (c.toNat / 16) + c.toNat % 16 = c.toNat := by omega
  simp only [hexEscape, hzero, hhigh, hlow, hcode]

private theorem escape_control {c : Char} (hc : c.toNat < 0x20) (rest : List Char) :
    escape ('u' :: '0' :: '0' :: Bytes.hexDigit (c.toNat / 16) :: Bytes.hexDigit (c.toNat % 16) ::
      rest) = .ok (c, rest) := by
  change unicodeEscape _ = _
  have hlow : ¬ (0xdc00 ≤ c.toNat ∧ c.toNat ≤ 0xdfff) := by omega
  have hscalar : c.toNat < 0xd800 ∨ 0xdbff < c.toNat := by omega
  rw [unicodeEscape, hexEscape_control hc rest]
  change (if 0xdc00 ≤ c.toNat ∧ c.toNat ≤ 0xdfff then _ else _) = _
  rw [if_neg hlow, if_pos hscalar, Char.ofNat_toNat]
  rfl

private theorem stringRounds_escape {c : Char} {s t : List Char} (h : escape s = .ok (c, t))
    (n : Nat) :
    stringRounds (n + 1) ('\\' :: s) = (stringRounds n t).map fun (cs, r) => (c :: cs, r) := by
  rw [stringRounds, h]
  change (stringRounds n t >>= fun (cs, r) => pure (c :: cs, r)) = _
  cases stringRounds n t <;> rfl

private theorem stringRounds_plain {c : Char} (hquote : c ≠ '"') (hslash : c ≠ '\\')
    (hc : ¬ c.toNat < 0x20) (n : Nat) (s : List Char) :
    stringRounds (n + 1) (c :: s) = (stringRounds n s).map fun (cs, r) => (c :: cs, r) := by
  rw [stringRounds.eq_5 _ _ _ hquote hslash, if_neg hc]
  cases stringRounds n s <;> rfl

private theorem stringRounds_writeChar (c : Char) (n : Nat) (s : List Char) :
    stringRounds (n + 1) (writeChar c ++ s) =
      (stringRounds n s).map fun (cs, r) => (c :: cs, r) := by
  unfold writeChar
  split
  · rename_i hmark
    rw [Bool.or_eq_true, decide_eq_true_iff, decide_eq_true_iff] at hmark
    obtain rfl | rfl := hmark
    · exact stringRounds_escape rfl n
    · exact stringRounds_escape rfl n
  · rename_i hmark
    rw [Bool.or_eq_true, decide_eq_true_iff, decide_eq_true_iff, not_or] at hmark
    split
    · subst c
      exact stringRounds_escape rfl n
    split
    · subst c
      exact stringRounds_escape rfl n
    split
    · subst c
      exact stringRounds_escape rfl n
    split
    · subst c
      exact stringRounds_escape rfl n
    split
    · subst c
      exact stringRounds_escape rfl n
    split
    · exact stringRounds_escape (escape_control ‹_› s) n
    · exact stringRounds_plain hmark.1 hmark.2 ‹_› n s

private theorem stringRounds_writeChars (cs : List Char) {n : Nat} (hn : cs.length < n)
    (rest : List Char) :
    stringRounds n (cs.flatMap writeChar ++ '"' :: rest) = .ok (cs, rest) := by
  induction cs generalizing n with
  | nil =>
    cases n with
    | zero => cases hn
    | succ n => rfl
  | cons c cs ih =>
    cases n with
    | zero => cases hn
    | succ n =>
      rw [List.flatMap_cons, List.append_assoc, stringRounds_writeChar,
        ih (Nat.lt_of_succ_lt_succ hn)]
      rfl

private theorem one_le_length_writeChar (c : Char) : 1 ≤ (writeChar c).length := by
  unfold writeChar
  repeat' split
  all_goals exact Nat.le_add_left 1 _

private theorem length_le_length_flatMap_writeChar (cs : List Char) :
    cs.length ≤ (cs.flatMap writeChar).length := by
  induction cs with
  | nil => exact Nat.le_refl 0
  | cons c cs ih =>
    have hc := one_le_length_writeChar c
    rw [List.flatMap_cons, List.length_append, List.length_cons]
    omega

theorem stringBody_writeString (s : String) (rest : List Char) :
    stringBody (s.toList.flatMap writeChar ++ '"' :: rest) = .ok (s, rest) := by
  have hrounds : s.toList.length <
      (s.toList.flatMap writeChar ++ '"' :: rest).length + 1 := by
    have hlength := length_le_length_flatMap_writeChar s.toList
    rw [List.length_append]
    omega
  rw [stringBody, stringRounds_writeChars s.toList hrounds]
  change Except.ok (String.ofList s.toList, rest) = _
  rw [String.ofList_toList]

theorem scalar_string (s : String) (rest : List Char) :
    scalar (writeString s ++ rest) = .ok (.string s, rest) := by
  rw [writeString, List.cons_append, List.cons_append, List.append_assoc]
  change (stringBody (s.toList.flatMap writeChar ++ '"' :: rest) >>= _) = _
  rw [stringBody_writeString]
  rfl

end ResultCache.Json
