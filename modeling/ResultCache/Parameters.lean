import ResultCache.Dictionary
import ResultCache.Value

/-!
# Parameter objects

What a caller hands to a statement: nothing, one value for every property, or named values.
-/

namespace ResultCache

inductive Parameters where
  /-- No value: every property reads as null. -/
  | none
  /-- One value that every property reads. -/
  | scalar (value : Value)
  /-- Values looked up by property. -/
  | named (values : Dictionary Value)

/-- A dotted path that leads into a value that has no properties. -/
structure PathFault where
  /-- What remains of the path after its first segment. -/
  rest : String
  /-- The first segment, which names a parameter. -/
  head : String
  /-- The value of that parameter. -/
  holding : Value
  deriving DecidableEq, Repr

namespace PathFault

def message (fault : PathFault) : String :=
  "Cannot read '" ++ fault.rest ++ "' from parameter '" ++ fault.head ++ "' holding " ++
    fault.holding.render

end PathFault

namespace Parameters

/-- Parameters with one more named value. Parameters without names lose what they held. -/
def insert (params : Parameters) (name : String) (value : Value) : Parameters :=
  match params with
  | .named values => .named (values.insert name value)
  | _ => .named (Dictionary.empty.insert name value)

/-- The first segment of a dotted path and, if there is a dot, what follows it. -/
def splitPath (property : String) : String × Option String :=
  let chars := property.toList
  let head := chars.takeWhile (· ≠ '.')
  match chars.drop head.length with
  | [] => (property, Option.none)
  | _ :: rest => (String.ofList head, some (String.ofList rest))

/-- The value that a property reads. A missing name reads as null, and so does every path below a
missing or null value; a path below any other value cannot be read. -/
def resolve (params : Parameters) (property : String) : Except PathFault Value :=
  match params with
  | .none => .ok .null
  | .scalar value => .ok value
  | .named values =>
    match splitPath property with
    | (head, rest) =>
      match values.find? head, rest with
      | Option.none, _ => .ok .null
      | some .null, some _ => .ok .null
      | some value, Option.none => .ok value
      | some value, some rest => .error ⟨rest, head, value⟩

end Parameters
end ResultCache
