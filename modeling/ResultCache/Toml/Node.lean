import ResultCache.Config.Tree
import ResultCache.Toml.Moment

/-!
# Parts of a TOML document

Values as they stand in a document, and tables with how they came to be, which says whether a later
line may add to them. A finished part becomes a configuration tree.
-/

namespace ResultCache.Toml

inductive Origin where
  /-- Opened by a header of its own. -/
  | opened
  /-- Only on the way to a table that a header opened. -/
  | passed
  /-- Made by a dotted key. -/
  | dotted
  /-- Written in line as the value of a key, and complete. -/
  | inline
  deriving DecidableEq

inductive Node where
  | scalar (value : Tree)
  /-- A moment in its usual form. -/
  | moment (text : String)
  | list (items : List Node)
  | table (origin : Origin) (entries : List (String × Node))
  /-- The tables of an array, the one opened last first. -/
  | tables (last : List (String × Node)) (earlier : List (List (String × Node)))

namespace Node

instance : Inhabited Node := ⟨scalar .nothing⟩

/-- The origin and the entries of a table. -/
abbrev Body := Origin × List (String × Node)

/-! ## Building -/

/-- Changes the table at the end of a path, making what is missing. A dotted key may only lead
through tables without a header of their own, and nothing leads into a table written in line. -/
def change (byKey : Bool) : List String → (Body → Option Body) → Body → Option Body
  | [], f, body => f body
  | name :: rest, f, (origin, entries) =>
    match entries.lookup name with
    | none =>
      (change byKey rest f (if byKey then .dotted else .passed, [])).map fun (o, es) =>
        (origin, entries ++ [(name, .table o es)])
    | some (.table below es) =>
      if below = .inline ∨ (byKey ∧ below = .opened) then none
      else (change byKey rest f (below, es)).map fun (o, es) =>
        (origin, Table.setEntry name (.table o es) entries)
    | some (.tables last earlier) =>
      (change byKey rest f (.opened, last)).map fun (_, last) =>
        (origin, Table.setEntry name (.tables last earlier) entries)
    | some _ => none

/-- Opens a table, which then is the last of its siblings. -/
def openTable (name : String) : Body → Option Body
  | (origin, entries) =>
    match entries.lookup name with
    | none => some (origin, entries ++ [(name, .table .opened [])])
    | some (.table .passed es) =>
      some (origin, entries.filter (·.1 ≠ name) ++ [(name, .table .opened es)])
    | some _ => none

/-- Opens a further table of an array. -/
def openItem (name : String) : Body → Option Body
  | (origin, entries) =>
    match entries.lookup name with
    | none => some (origin, entries ++ [(name, .tables [] [])])
    | some (.tables last earlier) =>
      some (origin, Table.setEntry name (.tables [] (last :: earlier)) entries)
    | some _ => none

/-- Sets a key in the table that its dotted prefix leads to. -/
def setKey (names : List String) (value : Node) (body : Body) : Option Body :=
  match names.reverse with
  | [] => none
  | name :: front =>
    change true front.reverse (fun (origin, entries) =>
      if (front.isEmpty ↔ origin = .dotted) ∨ (entries.lookup name).isSome then none
      else some (origin, entries ++ [(name, value)])) body

/-! ## Finishing -/

/-- The first key of a table that stands for the moment its text gives. -/
def momentKey : String := "$__toml_private_datetime"

mutual
/-- The tree of a finished part. -/
def toTree? : Node → Option Tree
  | .scalar value => some value
  | .moment text => some (.text text)
  | .list items => (toItems? items).map .list
  | .table _ entries => ofTable? entries
  | .tables last earlier =>
    (ofTables? earlier).bind fun earlier => (ofTable? last).map fun last =>
      .list (earlier ++ [last])

def toItems? : List Node → Option (List Tree)
  | [] => some []
  | item :: rest => (toTree? item).bind fun item => (toItems? rest).map (item :: ·)

/-- The tree of a table: a moment if its first key says so, and a section otherwise. -/
def ofTable? : List (String × Node) → Option Tree
  | [] => some (.section [])
  | (name, node) :: rest =>
    if name = momentKey then
      match node with
      | .scalar (.text text) => (Moment.read? text.toList).map .text
      | _ => none
    else
      (toTree? node).bind fun value => (toEntries? rest).map fun rest =>
        .section ((name, value) :: rest)

def toEntries? : List (String × Node) → Option (List (String × Tree))
  | [] => some []
  | (name, node) :: rest =>
    (toTree? node).bind fun value => (toEntries? rest).map ((name, value) :: ·)

/-- Earlier tables of an array, which stand in reverse. -/
def ofTables? : List (List (String × Node)) → Option (List Tree)
  | [] => some []
  | entries :: rest =>
    (ofTables? rest).bind fun rest => (ofTable? entries).map fun table => rest ++ [table]
end

end Node
end ResultCache.Toml
