/-!
# Bytes

Byte sequences, their hexadecimal text, and 64-bit words in little-endian order.
-/

namespace ResultCache

abbrev Bytes := List UInt8

namespace Bytes

def ofText (s : String) : Bytes := s.toByteArray.data.toList

/-- How many bytes continue a character of several bytes after its first, and between which bounds
the first of them lies. -/
private def continuation? (first : UInt8) : Option (Nat × UInt8 × UInt8) :=
  if first < 0xc2 then none
  else if first < 0xe0 then some (1, 0x80, 0xbf)
  else if first = 0xe0 then some (2, 0xa0, 0xbf)
  else if first = 0xed then some (2, 0x80, 0x9f)
  else if first < 0xf0 then some (2, 0x80, 0xbf)
  else if first = 0xf0 then some (3, 0x90, 0xbf)
  else if first < 0xf4 then some (3, 0x80, 0xbf)
  else if first = 0xf4 then some (3, 0x80, 0x8f)
  else none

/-- How many of the next bytes, up to a number of them, continue a character. -/
private def continued : Nat → UInt8 × UInt8 → Bytes → Nat
  | n + 1, (low, high), b :: rest =>
    if low ≤ b && b ≤ high then continued n (0x80, 0xbf) rest + 1 else 0
  | _, _, _ => 0

/-- The characters of the bytes in UTF-8. One replacement character stands for each byte that begins
no character, and for each character that breaks off. -/
private def toChars : Bytes → List Char
  | [] => []
  | b :: rest =>
    if b < 0x80 then Char.ofNat b.toNat :: toChars rest
    else
      match continuation? b with
      | none => '\ufffd' :: toChars rest
      | some (n, bounds) =>
        let more := continued n bounds rest
        let c :=
          if more = n then
            Char.ofNat ((rest.take n).foldl (fun code b => 64 * code + b.toNat % 64)
              (b.toNat % (128 >>> (n + 1))))
          else '\ufffd'
        c :: toChars (rest.drop more)
termination_by bytes => bytes.length

/-- The text of the bytes in UTF-8, with replacement characters for what is no UTF-8. -/
def toText (bytes : Bytes) : String := String.ofList (toChars bytes)

def hexDigit (n : Nat) : Char :=
  if n < 10 then Char.ofNat (48 + n) else Char.ofNat (87 + n)

def hexValue? (c : Char) : Option Nat :=
  if '0' ≤ c ∧ c ≤ '9' then some (c.toNat - 48)
  else if 'a' ≤ c ∧ c ≤ 'f' then some (c.toNat - 87)
  else if 'A' ≤ c ∧ c ≤ 'F' then some (c.toNat - 55)
  else none

/-- Two lower-case hexadecimal digits for every byte. -/
def toHex (bytes : Bytes) : String :=
  String.ofList (bytes.flatMap fun b => [hexDigit (b.toNat / 16), hexDigit (b.toNat % 16)])

/-- Reads pairs of hexadecimal digits of either case. -/
def ofHex? : List Char → Option Bytes
  | [] => some []
  | [_] => none
  | high :: low :: rest => do
    let h ← hexValue? high
    let l ← hexValue? low
    let bytes ← ofHex? rest
    pure (UInt8.ofNat (16 * h + l) :: bytes)

/-- The eight bytes of a word, the lowest first. -/
def ofWord (word : UInt64) : Bytes :=
  [word.toUInt8, (word >>> 8).toUInt8, (word >>> 16).toUInt8, (word >>> 24).toUInt8,
    (word >>> 32).toUInt8, (word >>> 40).toUInt8, (word >>> 48).toUInt8, (word >>> 56).toUInt8]

/-- The word whose bytes are given, the lowest first. -/
def toWord (bytes : Bytes) : UInt64 :=
  bytes.foldr (fun b word => (word <<< 8) ||| b.toUInt64) 0

theorem ofText_inj {s t : String} : ofText s = ofText t ↔ s = t := by
  constructor
  · intro h
    apply String.toByteArray_inj.mp
    exact ByteArray.ext (Array.toList_inj.mp h)
  · rintro rfl
    rfl

@[simp] theorem length_ofWord (word : UInt64) : (ofWord word).length = 8 := rfl

end Bytes
end ResultCache
