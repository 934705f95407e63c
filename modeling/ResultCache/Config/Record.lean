/-!
# Records from untyped data

A record is given by the names of its fields or as a list in the order of its fields. A field that
is not given keeps its default, and a name that is no field's is ignored.
-/

namespace ResultCache

/-- A field: its name, and how a value of it changes the record. -/
abbrev RecordField (ν ε τ : Type) := String × (ν → τ → Except ε τ)

namespace RecordField

variable {ν ε α τ : Type}

def of (name : String) (read : ν → Except ε α) (set : α → τ → τ) : RecordField ν ε τ :=
  (name, fun value record => (read value).map fun x => set x record)

def setNamed (fields : List (RecordField ν ε τ)) : List (String × ν) → τ → Except ε τ
  | [], record => .ok record
  | (name, value) :: rest, record =>
    match fields.lookup name with
    | none => setNamed fields rest record
    | some set =>
      match set value record with
      | .error e => .error e
      | .ok record => setNamed fields rest record

/-- Sets the fields in order, as many as there are values. -/
def setListed : List (RecordField ν ε τ) → List ν → τ → Except ε τ
  | (_, set) :: fields, value :: rest, record =>
    match set value record with
    | .error e => .error e
    | .ok record => setListed fields rest record
  | _, _, record => .ok record

end RecordField
end ResultCache
