import ResultCache.Text.Number

/-!
# Moments

Dates, times of day, and both together with an optional offset from the common time. A moment has
one usual form, which is how configuration sees it.
-/

namespace ResultCache.Toml.Moment

/-- What follows two digits at the start that are no more than a bound. -/
private def twoDigits (most : Nat) (s : List Char) : Option (List Char) :=
  match s with
  | a :: b :: rest =>
    if a.isDigit && b.isDigit && Text.valueOf 10 [a, b] ≤ most then some rest else none
  | _ => none

private def daysIn (year month : Nat) : Nat :=
  if month = 2 then
    if (year % 4 = 0 && year % 100 ≠ 0) || year % 400 = 0 then 29 else 28
  else if month = 4 || month = 6 || month = 9 || month = 11 then 30 else 31

/-- A date at the start, and what follows it. -/
def date? (s : List Char) : Option (List Char × List Char) :=
  match s with
  | y1 :: y2 :: y3 :: y4 :: '-' :: m1 :: m2 :: '-' :: d1 :: d2 :: rest =>
    if [y1, y2, y3, y4, m1, m2, d1, d2].all Char.isDigit then
      let year := Text.valueOf 10 [y1, y2, y3, y4]
      let month := Text.valueOf 10 [m1, m2]
      let day := Text.valueOf 10 [d1, d2]
      if 1 ≤ month && month ≤ 12 && 1 ≤ day && day ≤ daysIn year month then some (s.take 10, rest)
      else none
    else none
  | _ => none

/-- A time at the start in its usual form, and what follows it. The fraction of a second has at
most nine places and no trailing zeros. -/
def time? (s : List Char) : Option (List Char × List Char) :=
  match twoDigits 23 s with
  | some (':' :: r) =>
    match twoDigits 59 r with
    | some (':' :: r) =>
      match twoDigits 60 r with
      | some ('.' :: r) =>
        let places := r.takeWhile Char.isDigit
        let kept := ((places.take 9).reverse.dropWhile (· = '0')).reverse
        if places.isEmpty then none
        else some (s.take 8 ++ (if kept.isEmpty then [] else '.' :: kept), r.drop places.length)
      | some r => some (s.take 8, r)
      | none => none
    | _ => none
  | _ => none

/-- The usual form of an offset, which must end the text. The offset of no minutes has a plus. -/
private def offset? (s : List Char) : Option (List Char) :=
  match s with
  | [] => some []
  | ['Z'] => some ['Z']
  | ['z'] => some ['Z']
  | sign :: r =>
    if sign = '+' || sign = '-' then
      match twoDigits 23 r with
      | some (':' :: minutes) =>
        if twoDigits 59 minutes = some [] then
          some (if r = ['0', '0', ':', '0', '0'] then '+' :: r else s)
        else none
      | _ => none
    else none

/-- The usual form of a moment. -/
def read? (s : List Char) : Option String :=
  match date? s with
  | some (date, []) => some (String.ofList date)
  | some (date, mark :: rest) =>
    if mark = 'T' || mark = 't' || mark = ' ' then
      (time? rest).bind fun (time, rest) => (offset? rest).map fun offset =>
        String.ofList (date ++ 'T' :: time ++ offset)
    else none
  | none =>
    match time? s with
    | some (time, []) => some (String.ofList time)
    | _ => none

end ResultCache.Toml.Moment
