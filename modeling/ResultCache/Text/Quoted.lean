import ResultCache.Text.Invisible

/-!
# Quoted texts

A quoted text stands between double quotes. Quotes, backslashes and the common controls have a
short escape, every other invisible character its code point in braces.
-/

namespace ResultCache.Text

/-- The lower-case hexadecimal form of a number without leading zeros. -/
def hexadecimal (n : Nat) : List Char := Nat.toDigits 16 n

private def quotedChar (c : Char) : List Char :=
  if c = '"' || c = '\\' then ['\\', c]
  else if c = '\x00' then ['\\', '0']
  else if c = '\t' then ['\\', 't']
  else if c = '\n' then ['\\', 'n']
  else if c = '\r' then ['\\', 'r']
  else if isInvisible c then ['\\', 'u', '\x7b'] ++ hexadecimal c.toNat ++ ['\x7d']
  else [c]

/-- The text between quotes, with escapes. -/
def quoted (s : String) : String :=
  String.ofList ('"' :: s.toList.flatMap quotedChar ++ ['"'])

end ResultCache.Text
