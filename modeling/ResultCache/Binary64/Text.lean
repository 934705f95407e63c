import ResultCache.Binary64.Rounding
import ResultCache.Text.Lower
import ResultCache.Text.Number

/-!
# Floating-point numbers as text

A sign, digits with an optional point, and an optional exponent; or a word for infinity or NaN.
-/

namespace ResultCache.Binary64

private def exponent? : List Char → Option Int
  | [] => some 0
  | mark :: rest => if mark = 'e' || mark = 'E' then Text.integer? rest else none

def ofText? (text : String) : Option Binary64 :=
  match Text.takeSign text.toList with
  | (negative, s) =>
    let word := Text.lower (String.ofList s)
    if word = "inf" || word = "infinity" then some (ofMagnitude negative infinity)
    else if word = "nan" then some (ofMagnitude negative nan)
    else
      let whole := s.takeWhile Char.isDigit
      let (places, rest) := match s.drop whole.length with
        | '.' :: r => (r.takeWhile Char.isDigit, r.dropWhile Char.isDigit)
        | r => ([], r)
      if whole.isEmpty && places.isEmpty then none
      else
        (exponent? rest).map fun exponent =>
          signed negative
            (ofDecimal (Text.valueOf 10 (whole ++ places)) (exponent - places.length))

end ResultCache.Binary64
