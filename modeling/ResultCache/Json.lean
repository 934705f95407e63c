import ResultCache.Binary64.Basic
import ResultCache.Dictionary

/-!
# JSON values

The values that stores keep as text. Integers that fit a signed or an unsigned 64-bit word stay
exact, other numbers are finite floating-point numbers, and the fields of an object stand in
ascending order of their names.
-/

namespace ResultCache

/-- An integer that fits a signed or an unsigned 64-bit word. -/
structure JsonInteger where
  val : Int
  inRange : Int64.minValue.toInt ≤ val ∧ val < UInt64.size
  deriving DecidableEq

def JsonInteger.ofInt? (n : Int) : Option JsonInteger :=
  if h : Int64.minValue.toInt ≤ n ∧ n < UInt64.size then some ⟨n, h⟩ else none

inductive Json where
  | null
  | bool (b : Bool)
  | integer (n : JsonInteger)
  | float (x : Finite64)
  | string (s : String)
  | array (items : List Json)
  | object (fields : List (String × Json))

/-- A result row: a value for every column label. -/
abbrev Row := Dictionary Json

namespace Json

instance : Inhabited Json := ⟨null⟩

/-- The object of a list of fields; of two with one name the later counts. -/
def ofFields (fields : List (String × Json)) : Json := object (Dictionary.ofList fields).entries

def ofRow (row : Row) : Json := object row.entries

def ofRows (rows : List Row) : Json := array (rows.map ofRow)

end Json
end ResultCache
