import ResultCache.Bytes
import ResultCache.Binary64.Shortest
import ResultCache.Json

/-!
# Compact JSON text

No blanks, fields in the order of the value, and in strings only the escapes that the format
demands.
-/

namespace ResultCache.Json

/-- One character of a string: quotes, backslashes and controls are escaped. -/
def writeChar (c : Char) : List Char :=
  if c = '"' || c = '\\' then ['\\', c]
  else if c = '\n' then ['\\', 'n']
  else if c = '\r' then ['\\', 'r']
  else if c = '\t' then ['\\', 't']
  else if c = '\x08' then ['\\', 'b']
  else if c = '\x0c' then ['\\', 'f']
  else if c.toNat < 0x20 then
    ['\\', 'u', '0', '0', Bytes.hexDigit (c.toNat / 16), Bytes.hexDigit (c.toNat % 16)]
  else [c]

def writeString (s : String) : List Char := '"' :: s.toList.flatMap writeChar ++ ['"']

/-- The digits of a finite number that is not zero: with a point and at least one place between
the magnitudes `10 ^ (-5)` and `10 ^ 16`, with a signed exponent elsewhere. -/
def writeDecimal (d : Decimal) : List Char :=
  let digits := Nat.toDigits 10 d.digits
  let point := d.exponent + digits.length
  if 0 ≤ d.exponent ∧ point ≤ 16 then d.positional.toList ++ ['.', '0']
  else if -5 < point ∧ point ≤ 16 then d.positional.toList
  else
    let fraction := match digits with
      | first :: second :: rest => first :: '.' :: second :: rest
      | _ => digits
    let sign := if point ≤ 0 then '-' else '+'
    fraction ++ 'e' :: sign :: Nat.toDigits 10 (point - 1).natAbs

/-- A finite number in the fewest digits that read back. -/
def writeFloat (x : Binary64) : List Char :=
  (if x.isNegative then ['-'] else []) ++
    if x.isZero then ['0', '.', '0'] else writeDecimal (x.shortest .even)

mutual
def write : Json → List Char
  | .null => ['n', 'u', 'l', 'l']
  | .bool true => ['t', 'r', 'u', 'e']
  | .bool false => ['f', 'a', 'l', 's', 'e']
  | .integer n => (toString n.val).toList
  | .float x => writeFloat x.number
  | .string s => writeString s
  | .array items => '[' :: (writeItems items ++ [']'])
  | .object fields => '\x7b' :: (writeFields fields ++ ['\x7d'])

/-- The items of an array, between commas. -/
def writeItems : List Json → List Char
  | [] => []
  | [item] => write item
  | item :: rest => write item ++ ',' :: writeItems rest

/-- The fields of an object, between commas. -/
def writeFields : List (String × Json) → List Char
  | [] => []
  | [(name, value)] => writeString name ++ ':' :: write value
  | (name, value) :: rest => writeString name ++ ':' :: (write value ++ ',' :: writeFields rest)
end

def compact (value : Json) : String := String.ofList value.write

end ResultCache.Json
