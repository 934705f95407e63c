import ResultCache.Toml.Node

/-!
# TOML scalars

Numbers, truth values and moments: the values that stand without quotes and brackets.
-/

namespace ResultCache.Toml

/-- The digits of a base with single underscores between them, without the underscores. -/
private def digitsOf (isDigit : Char → Bool) : List Char → Option (List Char)
  | [] => none
  | [c] => if isDigit c then some [c] else none
  | c :: '_' :: rest => if isDigit c then (digitsOf isDigit rest).map (c :: ·) else none
  | c :: rest => if isDigit c then (digitsOf isDigit rest).map (c :: ·) else none

private def within64 (n : Int) : Option Tree := (Word.signed? n).map Tree.int

private def based (base : Nat) (isDigit : Char → Bool) (s : List Char) : Option Tree :=
  (digitsOf isDigit s).bind fun digits => within64 (Text.valueOf base digits)

/-- Decimal digits that do not begin with a superfluous zero. -/
private def decimal (s : List Char) : Option (List Char) :=
  (digitsOf Char.isDigit s).filter fun digits => digits.length = 1 || digits.head? ≠ some '0'

private def integer? (s : List Char) : Option Tree :=
  match s with
  | '0' :: 'x' :: rest => based 16 (fun c => (Bytes.hexValue? c).isSome) rest
  | '0' :: 'o' :: rest => based 8 (fun c => '0' ≤ c && c ≤ '7') rest
  | '0' :: 'b' :: rest => based 2 (fun c => c = '0' || c = '1') rest
  | _ =>
    match Text.takeSign s with
    | (negative, rest) => (decimal rest).bind fun digits =>
        within64 (Text.signed negative (Text.valueOf 10 digits))

private def float? (s : List Char) : Option Tree :=
  match Text.takeSign s with
  | (negative, rest) =>
    if rest = ['i', 'n', 'f'] then some (.float (.ofMagnitude negative Binary64.infinity))
    else if rest = ['n', 'a', 'n'] then some (.float (.ofMagnitude negative Binary64.nan))
    else
      let whole := rest.takeWhile fun (c : Char) => c.isDigit || c = '_'
      let rest := rest.drop whole.length
      let (places, rest) := match rest with
        | '.' :: r =>
          let places := r.takeWhile fun (c : Char) => c.isDigit || c = '_'
          (some places, r.drop places.length)
        | _ => (none, rest)
      let exponent := match rest with
        | 'e' :: r => some (some r)
        | 'E' :: r => some (some r)
        | [] => some none
        | _ => none
      match decimal whole, places.map (digitsOf Char.isDigit), exponent with
      | some whole, none, some (some r) => number negative whole [] (some r)
      | some whole, some (some places), some r => number negative whole places r
      | _, _, _ => none
where
  /-- The number of the given digits, places and exponent; one that is too large is refused. -/
  number (negative : Bool) (whole places : List Char) (exponent : Option (List Char)) :
      Option Tree :=
    let power : Option Int := match exponent with
      | none => some 0
      | some r =>
        match Text.takeSign r with
        | (down, r) => (digitsOf Char.isDigit r).map fun digits =>
            Text.signed down (Text.valueOf 10 digits)
    power.bind fun power =>
      let x := Binary64.ofDecimal (Text.valueOf 10 (whole ++ places)) (power - places.length)
      if x.isInfinite && !negative then none else some (.float (Binary64.signed negative x))

def scalar? (s : List Char) : Option Node :=
  if s = ['t', 'r', 'u', 'e'] then some (.scalar (.bool true))
  else if s = ['f', 'a', 'l', 's', 'e'] then some (.scalar (.bool false))
  else (((integer? s).or (float? s)).map .scalar).or ((Moment.read? s).map .moment)

/-- The characters of a scalar at the start. A blank belongs to it between a date and a time. -/
def scalarExtent (s : List Char) : List Char :=
  let inner (c : Char) : Bool := c.isAlphanum || c = '+' || c = '-' || c = '_' || c = '.' || c = ':'
  let first := s.takeWhile inner
  match Moment.date? first, s.drop first.length with
  | some (_, []), ' ' :: rest =>
    if (Moment.time? (rest.takeWhile inner)).isSome then
      first ++ ' ' :: rest.takeWhile inner
    else first
  | _, _ => first

end ResultCache.Toml
