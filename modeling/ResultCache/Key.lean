import ResultCache.Value.Canonical

/-!
# Lookup keys

A key is an ordered list of components together with a running hash, a checksum and a count. Every
component folds into the hash with its position as weight, so the order of the components counts.
-/

namespace ResultCache

structure Key where
  /-- The running hash, modulo `2 ^ 64`. -/
  hash : UInt64
  /-- The sum of the component hashes, modulo `2 ^ 64`. -/
  checksum : UInt64
  count : Nat
  components : List Value
  deriving DecidableEq, Repr

namespace Key

/-- What the running hash of a key without components is. -/
def seed : UInt64 := 17

/-- The factor that each further component applies to the running hash. -/
def multiplier : UInt64 := 37

def empty : Key := ⟨seed, 0, 0, []⟩

def update (key : Key) (component : Value) : Key :=
  let base := component.componentHash
  let count := key.count + 1
  { hash := multiplier * key.hash + base * UInt64.ofNat count
    checksum := key.checksum + base
    count
    components := key.components ++ [component] }

def updateAll (key : Key) (components : List Value) : Key := components.foldl update key

def ofComponents (components : List Value) : Key := empty.updateAll components

/-- Hash, checksum and the texts of the components, between colons. -/
def render (key : Key) : String :=
  key.components.foldl (fun text component => text ++ ":" ++ component.render)
    (toString key.hash.toNat ++ ":" ++ toString key.checksum.toNat)

/-- The name under which a shared store keeps the entry: the digest of the key's text. -/
def storageKey (key : Key) : String := (Sha256.digest (Bytes.ofText key.render)).toHex

@[simp] theorem components_update (key : Key) (component : Value) :
    (key.update component).components = key.components ++ [component] := rfl

@[simp] theorem count_update (key : Key) (component : Value) :
    (key.update component).count = key.count + 1 := rfl

@[simp] theorem updateAll_nil (key : Key) : key.updateAll [] = key := rfl

theorem updateAll_append (key : Key) (xs ys : List Value) :
    key.updateAll (xs ++ ys) = (key.updateAll xs).updateAll ys :=
  List.foldl_append

@[simp] theorem components_updateAll (key : Key) (xs : List Value) :
    (key.updateAll xs).components = key.components ++ xs := by
  induction xs generalizing key with
  | nil => simp
  | cons x xs ih => simpa [updateAll] using ih (key.update x)

end Key
end ResultCache
