import ResultCache.Binary64.Text
import ResultCache.Config.Tree
import ResultCache.Text.Lower

/-!
# Environments and the settings in them

A variable `QCACHE__SECTION__FIELD` gives a field of a section, in any case. Its value is a truth
value, an integer or another number if it reads as one, and a text otherwise; the variable of the
namespaces gives a list.
-/

namespace ResultCache

/-- An environment: variables by name. -/
abbrev Environment := List (String × String)

namespace Environment

/-! ## Entries

A system keeps an environment as a list of entries `NAME=text`. What comes before the first equals
sign is the name, which has at least one character and may begin with such a sign itself.
-/

def parse? (entry : String) : Option (String × String) :=
  match entry.toList with
  | [] => none
  | c :: rest =>
    match rest.dropWhile (· ≠ '=') with
    | [] => none
    | _ :: text => some (String.ofList (c :: rest.takeWhile (· ≠ '=')), String.ofList text)

/-- The variables of a system's entries. What is no entry gives none. -/
def ofEntries (entries : List String) : Environment := entries.filterMap parse?

theorem parse?_append (c : Char) (name text : List Char) (h : ∀ d ∈ name, d ≠ '=') :
    parse? (String.ofList (c :: (name ++ '=' :: text))) =
      some (String.ofList (c :: name), String.ofList text) := by
  have h : ∀ d ∈ name, decide (d ≠ '=') = true := fun d hd => decide_eq_true (h d hd)
  rw [parse?, String.toList_ofList]
  simp only [List.takeWhile_append_of_pos h, List.dropWhile_append_of_pos h]
  rw [List.takeWhile_cons_of_neg (by decide), List.dropWhile_cons_of_neg (by decide),
    List.append_nil]

/-- What follows the first text at the start of the second. -/
private def after? (start text : String) : Option String :=
  if start.toList.isPrefixOf text.toList then
    some (String.ofList (text.toList.drop start.toList.length))
  else none

/-- What follows a name and an equals sign at the start of an entry. For the name of a variable this
is its text; a longer name, with an equals sign in it, may give the end of a variable's text. -/
def value? (environment : Environment) (name : String) : Option String :=
  match parse? name with
  | none => environment.lookup name
  | some (name, start) =>
    environment.findSome? fun (other, text) =>
      if other = name then after? (start ++ "=") text else none

/-! ## Settings -/

/-- The value that a variable's text denotes under its name. -/
def valueOf (name text : String) : Tree :=
  let word := Text.lower text
  if word = "true" then .bool true
  else if word = "false" then .bool false
  else
    match Text.int64? text with
    | some n => .int n
    | none =>
      match Binary64.ofText? text with
      | some x => .float x
      | none =>
        if name = "namespaces" then .list ((text.splitOn ",").map .text) else .text text

/-- The value's name that a variable's name gives, if it gives one: what follows `qcache__` in lower
case, with points for double underscores. -/
def nameOf? (name : String) : Option String :=
  let lower := Text.lower name
  let start := "qcache__"
  if start.toList.isPrefixOf lower.toList then
    some (String.intercalate "." ((String.ofList (lower.toList.drop start.length)).splitOn "__"))
  else none

def entries (environment : Environment) : List (String × Tree) :=
  environment.filterMap fun (name, text) =>
    (nameOf? name).map fun name => (name, valueOf name text)

end Environment
end ResultCache
