import ResultCache.Json.Reader
import ResultCache.Word

/-!
# Typed reading of stored texts

A stored text is read by the shape that the caller asks for: a value of another shape is refused
where it stands, before the rest of the text is looked at.
-/

namespace ResultCache.Json

variable {α : Type}

/-- How many containers may be opened inside one another. -/
def maxDepth : Nat := 127

private def refuse (mismatch : Mismatch) (rest : List Char) : Except Stop α :=
  .error ⟨.mismatch mismatch, rest, 0⟩

/-- Refuses the value that comes next. A scalar is consumed first, and a fault in it is reported
instead; a container is not entered. -/
def refuseNext (expected : String) (s : List Char) : Except Stop α :=
  match s with
  | '[' :: r => refuse (.type .sequence expected) ('[' :: r)
  | '\x7b' :: r => refuse (.type .map expected) ('\x7b' :: r)
  | s =>
    match scalar s with
    | .error stop => .error stop
    | .ok (found, r) => refuse (.type found.found expected) r

/-- An integer within bounds; the conversion decides which integers fit. -/
def integerWithin (expected : String) (convert : Int → Option α) : Reader α := fun _ s =>
  let s := skipSpaces s
  match s with
  | c :: _ =>
    if c = '-' ∨ c.isDigit then
      match scalar s with
      | .error stop => .error stop
      | .ok (.integer n, r) =>
        match convert n.val with
        | some x => .ok (x, r)
        | none => refuse (.value (.integer n.val) expected) r
      | .ok (found, r) => refuse (.type found.found expected) r
    else refuseNext expected s
  | [] => refuseNext expected []

def int64 : Reader Int64 := integerWithin "i64" Word.signed?

def uint64 : Reader UInt64 := integerWithin "u64" fun n =>
  if 0 ≤ n then some (UInt64.ofNat n.toNat) else none

def boolean : Reader Bool := fun _ s =>
  let s := skipSpaces s
  match s with
  | 't' :: r => (word ['r', 'u', 'e'] r).map fun r => (true, r)
  | 'f' :: r => (word ['a', 'l', 's', 'e'] r).map fun r => (false, r)
  | s => refuseNext "a boolean" s

def text : Reader String := fun _ s =>
  match skipSpaces s with
  | '"' :: r => stringBody r
  | s => refuseNext "a string" s

/-- A sequence whose items are read by the given reader. -/
def sequence (item : Reader α) : Reader (List α) := fun depth s =>
  match skipSpaces s with
  | '[' :: r =>
    match depth with
    | 0 => .error ⟨.tooDeep, '[' :: r, 1⟩
    | depth + 1 => items (item depth) r
  | s => refuseNext "a sequence" s

/-- A row: an object with any values. -/
def row : Reader Row := fun depth s =>
  match skipSpaces s with
  | '\x7b' :: r =>
    match depth with
    | 0 => .error ⟨.tooDeep, '\x7b' :: r, 1⟩
    | depth + 1 => fields (value depth) r
  | s => refuseNext "a map" s

def texts : Reader (List String) := sequence text

def rows : Reader (List Row) := sequence row

/-- Line and column of the place that many bytes into a text. -/
def place : List Char → (bytes line column : Nat) → Nat × Nat
  | [], _, line, column => (line, column)
  | c :: r, bytes, line, column =>
    if c.utf8Size ≤ bytes then
      if c = '\n' then place r (bytes - 1) (line + 1) 0
      else place r (bytes - c.utf8Size) line (column + c.utf8Size)
    else (line, column + bytes)

private def faultOf (input : List Char) (stop : Stop) : Fault :=
  let consumed := byteLength input - byteLength stop.rest + stop.ahead
  match place input consumed 1 0 with
  | (line, column) => ⟨stop.cause, line, column⟩

/-- Reads a whole text with the given reader. Only spaces may follow the value. -/
def decodeWithin (depth : Nat) (read : Reader α) (text : String) : Except Fault α :=
  let input := text.toList
  match read depth input with
  | .error stop => .error (faultOf input stop)
  | .ok (x, r) =>
    match skipSpaces r with
    | [] => .ok x
    | r => .error (faultOf input ⟨.trailingCharacters, r, 1⟩)

theorem decodeWithin_of_ok {depth : Nat} {read : Reader α} {text : String} {x : α}
    (h : read depth text.toList = .ok (x, [])) : decodeWithin depth read text = .ok x := by
  rw [decodeWithin, h]
  rfl

/-- A text is refused for the reason for which its reader stopped. -/
theorem decodeWithin_of_error {depth : Nat} {read : Reader α} {text : String} {stop : Stop}
    (h : read depth text.toList = .error stop) :
    ∃ fault, decodeWithin depth read text = .error fault ∧ fault.cause = stop.cause := by
  rw [decodeWithin, h]
  exact ⟨_, rfl, rfl⟩

/-- Reads a whole text, with no more than `maxDepth` containers inside one another. -/
def decode (read : Reader α) (text : String) : Except Fault α := decodeWithin maxDepth read text

end ResultCache.Json
