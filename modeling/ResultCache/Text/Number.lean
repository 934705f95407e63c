import ResultCache.Bytes
import ResultCache.Word

/-!
# Integers as text

Digits of a base and the number they denote; integers of fixed width as decimal text, which is
digits with an optional sign and nothing else.
-/

namespace ResultCache.Text

/-- The number that digits of a base denote. -/
def valueOf (base : Nat) (digits : List Char) : Nat :=
  digits.foldl (fun n c => base * n + (Bytes.hexValue? c).getD 0) 0

/-- Whether a text begins with a minus, and what follows a sign of either kind. -/
def takeSign : List Char → Bool × List Char
  | '-' :: rest => (true, rest)
  | '+' :: rest => (false, rest)
  | s => (false, s)

/-- The number with the given magnitude. -/
def signed (negative : Bool) (magnitude : Nat) : Int :=
  if negative then -(magnitude : Int) else magnitude

/-- The natural number that a non-empty list of decimal digits denotes. -/
def natural? (digits : List Char) : Option Nat :=
  if digits.isEmpty || digits.any (fun c => !c.isDigit) then none else some (valueOf 10 digits)

/-- The integer that digits denote, with a plus or minus before them or without a sign. -/
def integer? (s : List Char) : Option Int :=
  match takeSign s with
  | (negative, digits) => (natural? digits).map (signed negative)

def int64? (s : String) : Option Int64 := (integer? s.toList).bind Word.signed?

/-- An unsigned 64-bit integer, which may carry a plus. -/
def uint64? (s : String) : Option UInt64 :=
  match s.toList with
  | '+' :: digits => (natural? digits).bind Word.unsigned?
  | digits => (natural? digits).bind Word.unsigned?

theorem valueOf_ten {digits : List Char} (h : ∀ c ∈ digits, c.isDigit = true) :
    valueOf 10 digits = Nat.ofDigitChars 10 digits 0 := by
  have step (n : Nat) {c : Char} (hc : c.isDigit = true) :
      10 * n + (Bytes.hexValue? c).getD 0 = 10 * n + (c.toNat - '0'.toNat) := by
    have hrange : '0' ≤ c ∧ c ≤ '9' := Char.isDigit_iff_toNat.mp hc
    rw [Bytes.hexValue?, if_pos hrange]
    rfl
  have go (n : Nat) :
      digits.foldl (fun n c => 10 * n + (Bytes.hexValue? c).getD 0) n =
        Nat.ofDigitChars 10 digits n := by
    induction digits generalizing n with
    | nil => rfl
    | cons c rest ih =>
      have hrest := ih fun d hd => h d (List.mem_cons_of_mem c hd)
      rw [List.foldl_cons, Nat.ofDigitChars_cons, step n (h c List.mem_cons_self), hrest]
  exact go 0

theorem natural?_toDigits (n : Nat) : natural? (Nat.toDigits 10 n) = some n := by
  have digits : ∀ c ∈ Nat.toDigits 10 n, c.isDigit = true := fun c hc =>
    Nat.isDigit_of_mem_toDigits (by decide) (by decide) hc
  have hany : (Nat.toDigits 10 n).any (fun c => !c.isDigit) = false := by
    rw [List.any_eq_false]
    intro c hc
    rw [digits c hc]
    decide
  rw [natural?, hany, List.isEmpty_eq_false_iff.mpr Nat.toDigits_ne_nil, valueOf_ten digits,
    Nat.ofDigitChars_ten_toDigits]
  rfl

/-- A word is read back from its decimal text. -/
theorem uint64?_toString (w : UInt64) : uint64? (toString w.toNat) = some w := by
  have hlist : (toString w.toNat).toList = Nat.toDigits 10 w.toNat := Nat.toList_repr
  have hplus : ∀ digits, Nat.toDigits 10 w.toNat ≠ '+' :: digits := by
    intro digits hdigits
    have hc := Nat.isDigit_of_mem_toDigits (b := 10) (n := w.toNat) (by decide) (by decide)
      (hdigits ▸ List.mem_cons_self)
    exact absurd hc (by decide)
  rw [uint64?, hlist]
  split
  · next digits hdigits => exact absurd hdigits (hplus digits)
  · rw [natural?_toDigits, Option.bind_some, Word.unsigned?_eq_some_iff]

end ResultCache.Text
