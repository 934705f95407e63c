import ResultCache.Config.Environment
import ResultCache.Text.Alphanumeric
import ResultCache.Text.Blank

/-!
# Environment files

A file of lines `NAME=value` gives variables that are not set yet. Values may be quoted, quoted
values may go over several lines, and `$NAME` stands for the value of a variable except between
single quotes. Reading ends at the first line that has another form.
-/

namespace ResultCache.EnvironmentFile

/-! ## Lines -/

private inductive Place where
  | plain
  | blank
  | escape
  | single
  | singleEscape
  | double
  | doubleEscape
  | comment
  deriving DecidableEq

private def Place.next (place : Place) (c : Char) : Place :=
  let opening (otherwise : Place) : Place :=
    if c = '\\' then .escape else if c = '"' then .double else if c = '\'' then .single
    else otherwise
  match place with
  | .blank => if c = '#' then .comment else opening .plain
  | .escape => .plain
  | .plain =>
    if Text.isBlank c && c ≠ '\n' && c ≠ '\r' then .blank else opening .plain
  | .double => if c = '\\' then .doubleEscape else if c = '"' then .plain else .double
  | .doubleEscape => .double
  | .single => if c = '\\' then .singleEscape else if c = '\'' then .plain else .single
  | .singleEscape => .single
  | .comment => .comment

/-- Where a line ends, and what of it stands before a comment. -/
private def scan (place : Place) : List Char → Place × List Char
  | [] => (place, [])
  | c :: rest =>
    match place.next c with
    | .comment => (.comment, [])
    | next =>
      match scan next rest with
      | (last, kept) => (last, c :: kept)

private def trimEnd (line : List Char) : List Char :=
  match line.reverse with
  | '\n' :: '\r' :: rest => rest.reverse
  | '\n' :: rest => rest.reverse
  | _ => line

/-- Joins physical lines, each with its end, into lines whose quotes are closed. Nothing stands for
a line that the file does not finish. -/
private def join : List (List Char) → Place → List Char → List (Option (List Char))
  | [], .plain, _ => []
  | [], _, _ => [none]
  | line :: rest, place, before =>
    if (((before ++ line).dropWhile Text.isBlank).head? = some '#') then
      some [] :: join rest .plain []
    else
      match scan place line with
      | (.plain, _) => some (trimEnd (before ++ line)) :: join rest .plain []
      | (.comment, kept) => some (before ++ kept) :: join rest .plain []
      | (place, _) => join rest place (before ++ line)

private def physicalLines (s : List Char) : List (List Char) :=
  s.foldr (fun c lines =>
    match c, lines with
    | '\n', lines => ['\n'] :: lines
    | c, line :: lines => (c :: line) :: lines
    | c, [] => [[c]]) []

/-! ## Values -/

private inductive Substitution where
  | none
  /-- After a dollar sign. The name goes as far as there are letters and numbers of any script. -/
  | bare
  /-- Between braces after a dollar sign. -/
  | braced
  deriving DecidableEq

private structure ValueState where
  single : Bool := false
  double : Bool := false
  escaped : Bool := false
  /-- Whether only blanks or a comment may follow. -/
  ended : Bool := false
  commented : Bool := false
  substitution : Substitution := .none
  /-- The name after a dollar sign, in reverse. -/
  name : List Char := []
  /-- What the value gives so far, in reverse. -/
  output : List Char := []

private def ValueState.substitute (s : ValueState) (value : String → String) : ValueState :=
  let text := value (String.ofList s.name.reverse)
  { s with name := [], output := text.toList.reverse ++ s.output }

private def ValueState.push (s : ValueState) (c : Char) : ValueState :=
  { s with output := c :: s.output }

private def ValueState.step (value : String → String) (s : ValueState) (c : Char) :
    Option ValueState :=
  if s.commented then some s
  else if s.ended then
    if c = ' ' || c = '\t' then some s
    else if c = '#' then some { s with commented := true }
    else none
  else if s.escaped then
    let s := { s with escaped := false }
    if c = '\\' || c = '\'' || c = '"' || c = '$' || c = ' ' then some (s.push c)
    else if c = 'n' then some (s.push '\n')
    else none
  else if s.single then
    some (if c = '\'' then { s with single := false } else s.push c)
  else if s.substitution ≠ .none then
    if Text.isAlphanumeric c then some { s with name := c :: s.name }
    else if s.substitution = .bare then
      if c = '\x7b' && s.name.isEmpty then some { s with substitution := .braced }
      else
        let s := s.substitute value
        if c = '$' then some { s with substitution := .bare }
        else some ({ s with substitution := .none }.push c)
    else if c = '\x7d' then some { s.substitute value with substitution := .none }
    else some { s with name := c :: s.name }
  else if c = '$' then some { s with substitution := .bare }
  else if s.double then
    some (if c = '"' then { s with double := false }
      else if c = '\\' then { s with escaped := true } else s.push c)
  else if c = '\'' then some { s with single := true }
  else if c = '"' then some { s with double := true }
  else if c = '\\' then some { s with escaped := true }
  else if c = ' ' || c = '\t' then some { s with ended := true }
  else some (s.push c)

private def value? (value : String → String) (s : List Char) : Option String :=
  (s.foldlM (ValueState.step value) {}).bind fun state =>
    if state.substitution = .braced || state.single || state.double then none
    else some (String.ofList (state.substitute value).output.reverse)

/-! ## Entries -/

private def skipBlanks (s : List Char) : List Char := s.dropWhile Text.isBlank

private def dropLastBlanks (s : List Char) : List Char := (skipBlanks s.reverse).reverse

private def name? (s : List Char) : Option (List Char × List Char) :=
  match s with
  | c :: _ =>
    if c.isAlpha || c = '_' then
      let name := s.takeWhile fun c => c.isAlphanum || c = '_' || c = '.'
      some (name, skipBlanks (s.drop name.length))
    else none
  | [] => none

/-- The name and the value of a line, or nothing for a blank line or a comment. -/
private def entry? (lookup : String → String) (line : List Char) :
    Option (Option (String × String)) :=
  let s := skipBlanks (dropLastBlanks line)
  if s.isEmpty || s.head? = some '#' then some none
  else
    (name? s).bind fun (name, rest) =>
      let assigned : Option (List Char × List Char) :=
        match rest with
        | '=' :: rest => some (name, rest)
        | _ =>
          if name = "export".toList then
            (name? rest).bind fun (name, rest) =>
              match rest with
              | '=' :: rest => some (name, rest)
              | _ => none
          else none
      assigned.bind fun (name, rest) =>
        let rest := skipBlanks rest
        let text := if rest.isEmpty || rest.head? = some '#' then some "" else value? lookup rest
        text.map fun text => some (String.ofList name, text)

/-- Sets a variable unless it is set. No variable can hold a null character. -/
private def setOnce (environment : Environment) (name text : String) : Option Environment :=
  if (environment.value? name).isSome then some environment
  else if text.toList.contains '\x00' then none
  else some (environment ++ [(name, text)])

private def load (environment : Environment) (stored : Environment) :
    List (Option (List Char)) → Option Environment
  | [] => some environment
  | none :: _ => some environment
  | some line :: rest =>
    let lookup (name : String) : String :=
      ((environment.value? name).or (stored.lookup name)).getD ""
    match entry? lookup line with
    | none => some environment
    | some none => load environment stored rest
    | some (some (name, text)) =>
      (setOnce environment name text).bind fun environment =>
        load environment ((name, text) :: stored) rest

/-- The environment with the variables of a file that were not set before, or nothing if one of
them cannot be set. -/
def addTo (environment : Environment) (text : String) : Option Environment :=
  let s := match text.toList with
    | '\ufeff' :: rest => rest
    | s => s
  load environment [] (join (physicalLines s) .plain [])

end ResultCache.EnvironmentFile
