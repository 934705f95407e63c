import ResultCache.Binary64.Rounding
import ResultCache.Json
import ResultCache.Text.Lower
import ResultCache.Text.Number
import ResultCache.Value

/-!
# Configuration trees

What the sources of a configuration have in common: sections of named values, lists, and scalars
that convert freely into one another. Later sources are laid over earlier ones value by value, and
the names under which values are laid are in lower case.
-/

namespace ResultCache

inductive Tree where
  | nothing
  | bool (b : Bool)
  | int (n : Int64)
  | float (x : Binary64)
  | text (s : String)
  | list (items : List Tree)
  | section (entries : List (String × Tree))

namespace Tree

instance : Inhabited Tree := ⟨nothing⟩

mutual
/-- The tree of a JSON value. Integers beyond signed 64 bits become floating-point numbers. -/
def ofJson : Json → Tree
  | .null => .nothing
  | .bool b => .bool b
  | .integer n =>
    match Word.signed? n.val with
    | some n => .int n
    | none => .float (Binary64.ofNat n.val.toNat)
  | .float x => .float x.number
  | .string s => .text s
  | .array items => .list (ofJsonItems items)
  | .object fields => .section (ofJsonFields fields)

def ofJsonItems : List Json → List Tree
  | [] => []
  | item :: rest => ofJson item :: ofJsonItems rest

def ofJsonFields : List (String × Json) → List (String × Tree)
  | [] => []
  | (name, value) :: rest => (name, ofJson value) :: ofJsonFields rest
end

/-- The entries of a section; anything else has none. -/
def entries : Tree → List (String × Tree)
  | .section entries => entries
  | _ => []

/-! ## Laying values over a tree -/

mutual
/-- Sets the value of a name. A section is laid over the section that the name has; anything else
replaces what the name has. -/
def assign (name : String) (value : Tree) (root : Tree) : Tree :=
  let name := Text.lower name
  match value with
  | .section incoming =>
    let below := (root.entries.lookup name).getD (.section [])
    .section (Table.setEntry name (assignAll incoming below) root.entries)
  | value => .section (Table.setEntry name value root.entries)

def assignAll : List (String × Tree) → Tree → Tree
  | [], root => root
  | (name, value) :: rest, root => assignAll rest (assign name value root)
end

inductive Step where
  | name (s : String)
  /-- A place in a list, from its end if negative. -/
  | place (n : Int)
  deriving DecidableEq, Repr

def maxItems : Nat := 0x1000000

/-- The place in a list of the given length, unless it is before the start or further than a list
can go. -/
private def placeIn (n : Int) (length : Nat) : Option Nat :=
  if n < 0 then if (-n).toNat ≤ length then some (length - (-n).toNat) else none
  else if n.toNat < maxItems then some n.toNat else none

/-- Sets a value at the end of a path, making what the path leads through. No path leads to a place
that a list cannot have. -/
def assignAt : List Step → Tree → Tree → Option Tree
  | [], value, _ => some value
  | [.name name], value, root => some (assign name value root)
  | .name name :: rest, value, root =>
    let name := Text.lower name
    (assignAt rest value ((root.entries.lookup name).getD .nothing)).map fun below =>
      .section (Table.setEntry name below root.entries)
  | .place n :: rest, value, root =>
    let items := match root with
      | .list items => items
      | _ => []
    (placeIn n items.length).bind fun place =>
      match items[place]? with
      | some item => (assignAt rest value item).map fun item => .list (items.set place item)
      | none => (assignAt rest value .nothing).map fun item =>
          .list (items ++ List.replicate (place - items.length) .nothing ++ [item])

private def isNameChar (c : Char) : Bool :=
  c.isAlphanum || c = ' ' || c = '_' || c = '-'

/-- A place: digits with or without a minus, and blanks around them. -/
private def place? (s : List Char) : Option Int :=
  let isPad (c : Char) : Bool := c = ' ' || c = '\t'
  let s := ((s.dropWhile isPad).reverse.dropWhile isPad).reverse
  let place := match s with
    | '-' :: digits => (Text.natural? digits).map (Text.signed true)
    | digits => (Text.natural? digits).map (Text.signed false)
  place.filter fun n => (Word.signed? n).isSome

/-- The steps after the first name: names after points and places in brackets. -/
private def stepsAfter : Nat → List Char → Option (List Step)
  | _, [] => some []
  | 0, _ => none
  | n + 1, '.' :: s =>
    let name := s.takeWhile isNameChar
    if name.isEmpty then none
    else (stepsAfter n (s.drop name.length)).map (.name (String.ofList name) :: ·)
  | n + 1, '[' :: s =>
    let inner := s.takeWhile (· ≠ ']')
    match place? inner, s.drop inner.length with
    | some place, ']' :: rest => (stepsAfter n rest).map (.place place :: ·)
    | _, _ => none
  | _, _ => none

/-- The path that a text denotes; a text that denotes none is one name. -/
def pathOf (text : String) : List Step :=
  let s := text.toList
  let first := s.takeWhile isNameChar
  if first.isEmpty then [.name text]
  else
    match stepsAfter s.length (s.drop first.length) with
    | some steps => .name (String.ofList first) :: steps
    | none => [.name text]

/-- Lays the entries of a source over a tree, each at the path that its name denotes. -/
def layer (source : List (String × Tree)) (root : Tree) : Option Tree :=
  source.foldlM (fun root (name, value) => assignAt (pathOf name) value root) root

/-! ## Free conversions -/

def toText? : Tree → Option String
  | .text s => some s
  | .bool b => some (if b then "true" else "false")
  | .int n => some (toString n.toInt)
  | .float x => some (Value.floatText x)
  | _ => none

/-- A natural number of 64 bits: truth values and their words count as zero and one, fractions are
rounded. -/
def toWord? : Tree → Option UInt64
  | .int n => if 0 ≤ n.toInt then some n.toUInt64 else none
  | .bool b => some (if b then 1 else 0)
  | .float x => some x.roundToUInt64
  | .text s =>
    let lower := s.toLower
    if ["true", "on", "yes"].contains lower then some 1
    else if ["false", "off", "no"].contains lower then some 0
    else Text.uint64? s
  | _ => none

end Tree
end ResultCache
