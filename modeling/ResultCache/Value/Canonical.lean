import ResultCache.Value
import ResultCache.Sha256

/-!
# The canonical bytes of a value

Every value has one byte sequence: a tag for its kind, then a fixed number of bytes, or a length
followed by that many bytes or items. No value's bytes begin another's, so the digest of the bytes
identifies the value.
-/

namespace ResultCache.Value

mutual
/-- The tagged, length-prefixed bytes of a value. -/
def canonical : Value → Bytes
  | .null => [0]
  | .bool b => [1, if b then 1 else 0]
  | .int n => 2 :: Bytes.ofWord n.toUInt64
  | .float x => 3 :: Bytes.ofWord x.bits
  | .text s =>
    let utf8 := Bytes.ofText s
    4 :: (Bytes.ofWord (UInt64.ofNat utf8.length) ++ utf8)
  | .bytes b => 5 :: (Bytes.ofWord (UInt64.ofNat b.length) ++ b)
  | .array items => 6 :: (Bytes.ofWord (UInt64.ofNat items.length) ++ canonicalItems items)

/-- The bytes of the items of an array, one after the other. -/
def canonicalItems : List Value → Bytes
  | [] => []
  | [item] => canonical item
  | item :: rest => canonical item ++ canonicalItems rest
end

@[simp]
theorem canonicalItems_nil : canonicalItems [] = [] := by rw [canonicalItems]

@[simp]
theorem canonicalItems_cons (item : Value) (rest : List Value) :
    canonicalItems (item :: rest) = canonical item ++ canonicalItems rest := by
  cases rest with
  | nil => rw [canonicalItems, canonicalItems, List.append_nil]
  | cons next rest => rw [canonicalItems]; exact List.cons_ne_nil _ _

/-- The hash of a key component: one for null, else the first eight bytes of the digest of the
canonical bytes, the lowest first. It depends on the value alone. -/
def componentHash (v : Value) : UInt64 :=
  if v.isNull then 1 else Bytes.toWord ((Sha256.digest (canonical v)).take 8)

end ResultCache.Value
