import ResultCache.Toml.Reader

/-!
# TOML documents

A document is a list of lines: headers that open a table or a further table of an array, and keys
with values that go into the table opened last. No table may be opened twice and no key set twice.
-/

namespace ResultCache.Toml

private abbrev State := List String × Node.Body

private def header (rounds : Nat) (close : List Char)
    (opening : String → Node.Body → Option Node.Body) (s : List Char) (root : Node.Body) :
    Option (State × List Char) :=
  (key rounds s).bind fun (names, r) =>
    match names.reverse with
    | [] => none
    | name :: front =>
      if close.isPrefixOf r then
        (Node.change false front.reverse (opening name) root).map fun root =>
          ((names, root), r.drop close.length)
      else none

/-- One line without its end: nothing, a header, or a key with a value. -/
private def line (rounds : Nat) (s : List Char) (state : State) : Option (State × List Char) :=
  match s with
  | [] => some (state, s)
  | '#' :: _ => some (state, s)
  | '\n' :: _ => some (state, s)
  | '\r' :: _ => some (state, s)
  | '[' :: '[' :: r => header rounds [']', ']'] Node.openItem r state.2
  | '[' :: r => header rounds [']'] Node.openTable r state.2
  | _ => (key rounds s).bind fun (names, r) =>
    match r with
    | '=' :: r => (value rounds (skipBlanks r)).bind fun (value, r) =>
      (Node.change false state.1 (Node.setKey names value) state.2).map fun root =>
        ((state.1, root), r)
    | _ => none

private def lines (rounds : Nat) : Nat → List Char → State → Option State
  | 0, _, _ => none
  | n + 1, s, state => (line rounds (skipBlanks s) state).bind fun (state, r) =>
    match skipComment (skipBlanks r) with
    | [] => some state
    | r =>
      match newline? r with
      | some r => lines rounds n r state
      | none => none

/-- The entries of a document. A document that stands for a moment has none. -/
def parse? (text : String) : Option (List (String × Tree)) :=
  let s := match text.toList with
    | '\ufeff' :: r => r
    | s => s
  let rounds := s.length + 1
  (lines rounds rounds s ([], (.opened, []))).bind fun state =>
    match Node.ofTable? state.2.2 with
    | some (.section entries) => some entries
    | _ => none

end ResultCache.Toml
