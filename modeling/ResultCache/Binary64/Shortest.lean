import ResultCache.Binary64.Basic

/-!
# The shortest decimal that reads back

Among the decimals that round to a given number, those on the coarsest grid `10 ^ exponent` have
the fewest digits. If that grid has a point in the interval of reals that round to the number,
then one of the number's two neighbours on the grid lies there; of two the nearer is taken.
-/

namespace ResultCache

/-- The decimal number `digits * 10 ^ exponent`. -/
structure Decimal where
  digits : Nat
  exponent : Int
  deriving DecidableEq, Repr

/-- Which of two equally near neighbours is taken. -/
inductive Tie
  /-- The larger one. -/
  | up
  /-- The one with an even last digit. -/
  | even
  deriving DecidableEq, Repr

namespace Binary64

/-- Whether `digits * 10 ^ exponent` rounds to the finite number `x`. The interval reaches half a
place up and half a place down, or a quarter down below a power of two; it holds its ends when the
significand is even. -/
def readsBack (x : Binary64) (digits : Nat) (exponent : Int) : Bool :=
  let down := if x.significand = hiddenBit ∧ 0 < x.scale then 1 else 2
  let low := ((4 * x.significand - down) <<< x.scale) * Nat.pow 10 (-exponent).toNat
  let high := ((4 * x.significand + 2) <<< x.scale) * Nat.pow 10 (-exponent).toNat
  let point := digits * Nat.pow 10 exponent.toNat * (4 * one)
  if x.significand % 2 = 0 then low ≤ point ∧ point ≤ high else low < point ∧ point < high

/-- The neighbour of `x` on the grid `10 ^ exponent` that reads back, if one does. -/
def gridPoint? (tie : Tie) (x : Binary64) (exponent : Int) : Option Nat :=
  let num := x.units * Nat.pow 10 (-exponent).toNat
  let den := one * Nat.pow 10 exponent.toNat
  let below := num / den
  let upper : Bool := match tie with
    | .up => den ≤ 2 * (num % den)
    | .even => den < 2 * (num % den) ∨ (den = 2 * (num % den) ∧ below % 2 = 1)
  match readsBack x below exponent, readsBack x (below + 1) exponent with
  | true, true => some (if upper then below + 1 else below)
  | true, false => some below
  | false, true => some (below + 1)
  | false, false => none

/-- Walks from the grid `10 ^ (start - 1)` down to ever finer ones. -/
private def search (tie : Tie) (x : Binary64) (least : Int) : Nat → Decimal
  | 0 => ⟨0, least⟩
  | n + 1 =>
    match gridPoint? tie x (least + n) with
    | some digits => ⟨digits, least + n⟩
    | none => search tie x least n

/-- The decimal with the fewest digits that rounds to the positive finite magnitude of `x`. Grids
from `10 ^ 309` to `10 ^ (-342)` suffice: at the last, every number is well resolved. -/
def shortest (tie : Tie) (x : Binary64) : Decimal := search tie x (-342) 652

end Binary64

namespace Decimal

/-- The digits without an exponent, with a point only before places that are needed. -/
def positional (d : Decimal) : String :=
  let text := Nat.toDigits 10 d.digits
  if 0 ≤ d.exponent then String.ofList (text ++ List.replicate d.exponent.toNat '0')
  else
    let places := (-d.exponent).toNat
    if places < text.length then
      String.ofList (text.take (text.length - places) ++ '.' :: text.drop (text.length - places))
    else String.ofList ('0' :: '.' :: List.replicate (places - text.length) '0' ++ text)

end Decimal
end ResultCache
