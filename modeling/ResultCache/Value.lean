import ResultCache.Bytes
import ResultCache.Binary64.Shortest

/-!
# Parameter values

A value bound to a statement, which is also a component of a lookup key. Equality is structural:
arrays element by element, floating-point numbers by their bits.
-/

namespace ResultCache

inductive Value where
  | null
  | bool (b : Bool)
  | int (n : Int64)
  | float (x : Binary64)
  | text (s : String)
  | bytes (b : Bytes)
  | array (items : List Value)
  deriving Repr

namespace Value

instance : Inhabited Value := ⟨null⟩

mutual
/-- Structural equality, decided. -/
def same : Value → Value → Bool
  | .null, .null => true
  | .bool a, .bool b => a == b
  | .int a, .int b => a == b
  | .float a, .float b => a = b
  | .text a, .text b => a == b
  | .bytes a, .bytes b => a == b
  | .array a, .array b => sameItems a b
  | _, _ => false

/-- Structural equality of two lists of values, decided. -/
def sameItems : List Value → List Value → Bool
  | [], [] => true
  | a :: as, b :: bs => same a b && sameItems as bs
  | _, _ => false
end

mutual
theorem eq_of_same : ∀ {a b : Value}, same a b = true → a = b
  | .null, .null, _ => rfl
  | .bool _, .bool _, h => by simpa [same] using h
  | .int _, .int _, h => by simpa [same] using h
  | .float _, .float _, h => by simpa [same] using h
  | .text _, .text _, h => by simpa [same] using h
  | .bytes _, .bytes _, h => by simpa [same] using h
  | .array _, .array _, h => congrArg array (eq_of_sameItems h)

theorem eq_of_sameItems : ∀ {a b : List Value}, sameItems a b = true → a = b
  | [], [], _ => rfl
  | a :: as, b :: bs, h => by
    rw [sameItems, Bool.and_eq_true] at h
    rw [eq_of_same h.1, eq_of_sameItems h.2]
end

mutual
theorem same_refl : ∀ a : Value, same a a = true
  | .null => rfl
  | .bool _ => by simp [same]
  | .int _ => by simp [same]
  | .float _ => by simp [same]
  | .text _ => by simp [same]
  | .bytes _ => by simp [same]
  | .array items => by rw [same, sameItems_refl items]

theorem sameItems_refl : ∀ a : List Value, sameItems a a = true
  | [] => rfl
  | a :: as => by rw [sameItems, same_refl a, sameItems_refl as]; rfl
end

theorem same_iff {a b : Value} : same a b = true ↔ a = b :=
  ⟨eq_of_same, fun h => h ▸ same_refl a⟩

instance : DecidableEq Value := fun _ _ => decidable_of_iff _ same_iff

/-- Whether the value is the null value. -/
def isNull : Value → Bool
  | .null => true
  | _ => false

/-- The text of a floating-point number: the fewest digits that read back, never an exponent, and
a point only where a fraction follows. -/
def floatText (x : Binary64) : String :=
  if x.isNaN then "NaN"
  else
    (if x.isNegative then "-" else "") ++
      (if x.isInfinite then "inf" else if x.isZero then "0" else (x.shortest .up).positional)

mutual
/-- The text of a value. Texts stand bare, so different values can have the same text. -/
def render : Value → String
  | .null => "null"
  | .bool b => if b then "true" else "false"
  | .int n => toString n.toInt
  | .float x => floatText x
  | .text s => s
  | .bytes b => "0x" ++ b.toHex
  | .array items => "[" ++ ",".intercalate (renderItems items) ++ "]"

def renderItems : List Value → List String
  | [] => []
  | item :: rest => render item :: renderItems rest
end

end Value
end ResultCache
