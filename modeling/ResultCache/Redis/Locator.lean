import ResultCache.Bytes
import ResultCache.Text.Number

/-!
# Locators

A locator is a scheme and what the scheme's resource is found by: a login, a host and a port, a
path, and a query of named values. Schemes of no particular kind are read, so a host may be any name
and no scheme has a port of its own.
-/

namespace ResultCache.Redis

structure Locator where
  /-- In lower case. -/
  scheme : String
  username : List Char := []
  password : List Char := []
  /-- Empty if there is none. -/
  host : String := ""
  port : Option Nat := none
  path : List Char
  query : List Char
  deriving DecidableEq, Repr

namespace Locator

/-- The text without controls and blanks around it, and without tabs and ends of lines. -/
private def cleaned (s : List Char) : List Char :=
  let outer (c : Char) : Bool := c.toNat ≤ 0x20
  ((s.dropWhile outer).reverse.dropWhile outer).reverse.filter fun c =>
    c ≠ '\t' && c ≠ '\n' && c ≠ '\r'

/-- The scheme in lower case and what follows its colon. -/
private def scheme? (s : List Char) : Option (String × List Char) :=
  let name := s.takeWhile fun c => c.isAlphanum || c = '+' || c = '-' || c = '.'
  match s.head?, s.drop name.length with
  | some first, ':' :: rest =>
    if first.isAlpha then some (String.ofList (name.map Char.toLower), rest) else none
  | _, _ => none

/-! ## Logins, hosts and ports -/

/-- What stands before and after the last occurrence of a character. -/
private def splitLast (mark : Char) (s : List Char) : Option (List Char × List Char) :=
  match s.reverse.span (· ≠ mark) with
  | (_, []) => none
  | (after, _ :: before) => some (before.reverse, after.reverse)

private def isForbidden (c : Char) : Bool :=
  "\x00\t\n\r #/:<>?@[\\]^|".toList.contains c

/-- The port after a host, if it has one, and what follows it: nothing, or what a backslash begins.
-/
private def port? (s : List Char) : Option (Option Nat × List Char) :=
  match s with
  | [] => some (none, [])
  | ':' :: r =>
    let digits := r.takeWhile Char.isDigit
    let rest := r.drop digits.length
    let n := Text.valueOf 10 digits
    if n < 65536 && (rest.isEmpty || rest.head? = some '\\') then
      some (if digits.isEmpty then none else some n, rest)
    else none
  | _ => none

/-- A group of an IPv6 address. -/
private def isGroup (s : List Char) : Bool :=
  0 < s.length && s.length ≤ 4 && s.all fun c => (Bytes.hexValue? c).isSome

private def isOctet (s : List Char) : Bool :=
  match Text.natural? s with
  | some n => n < 256 && (s.length = 1 || s.head? ≠ some '0')
  | none => false

/-- How many groups a list of colon-separated parts fills, the last of which may be dotted. -/
private def groupCount? (parts : List (List Char)) : Option Nat :=
  match parts.reverse with
  | [] => some 0
  | last :: front =>
    if front.all isGroup then
      if isGroup last then some (front.length + 1)
      else
        let octets := (String.ofList last).splitOn "."
        if octets.length = 4 && octets.all fun o => isOctet o.toList then some (front.length + 2)
        else none
    else none

private def isIPv6 (s : List Char) : Bool :=
  let parts (half : String) : List (List Char) :=
    if half.isEmpty then [] else (half.splitOn ":").map String.toList
  match (String.ofList s).splitOn "::" with
  | [whole] => groupCount? (parts whole) = some 8
  | [left, right] =>
    match groupCount? (parts left), groupCount? (parts right) with
    | some a, some b => a + b < 8 && (parts left).all isGroup
    | _, _ => false
  | _ => false

/-- The host at the start of a server's name, and what follows it. -/
private def host? (s : List Char) : Option (String × List Char) :=
  match s with
  | '[' :: rest =>
    let inner := rest.takeWhile (· ≠ ']')
    match rest.drop inner.length with
    | _ :: after => if isIPv6 inner then some (String.ofList inner, after) else none
    | [] => none
  | _ =>
    let name := s.takeWhile (· ≠ ':')
    let after := s.drop name.length
    if name.any isForbidden || (name.isEmpty && !after.isEmpty) then none
    else some (String.ofList name, after)

/-! ## Paths -/

private def isDot (s : List Char) : Bool :=
  [".", "%2e", "%2E"].contains (String.ofList s)

private def isDoubleDot (s : List Char) : Bool :=
  ["..", ".%2e", ".%2E", "%2e.", "%2E.", "%2e%2e", "%2e%2E", "%2E%2e", "%2E%2E"].contains
    (String.ofList s)

/-- Whether a segment is a letter with a colon or a bar, which may have a backslash after it. No
double dot leaves such a segment. -/
private def isDrive (s : List Char) : Bool :=
  match s with
  | letter :: mark :: rest =>
    letter.isAlpha && (mark = ':' || mark = '|') && (rest.isEmpty || rest.head? = some '\\')
  | _ => false

private def segments (s : List Char) : List (List Char) :=
  ((String.ofList s).splitOn "/").map String.toList

/-- Follows the dots of a path. A dot stays at the segments before it, which stand in reverse; a
double dot leaves the last of them. -/
private def follow : List (List Char) → List (List Char) → List (List Char)
  | before, [] => before
  | before, [last] =>
    if isDot last then [] :: before
    else if isDoubleDot last then [] :: leave before
    else last :: before
  | before, segment :: rest =>
    if isDot segment then follow before rest
    else if isDoubleDot segment then follow (leave before) rest
    else follow (segment :: before) rest
where
  leave : List (List Char) → List (List Char)
    | [] => []
    | last :: before => if isDrive last then last :: before else before

/-- A path that starts at the root, without dots. -/
private def resolved (path : List Char) : List Char :=
  match path with
  | '/' :: rest => (follow [] (segments rest)).reverse.flatMap ('/' :: ·)
  | _ => path

/-! ## Queries -/

/-- The bytes of a text in which a percent sign and two hexadecimal digits stand for one byte. -/
def unescaped : List Char → Bytes
  | [] => []
  | '%' :: a :: b :: rest =>
    match Bytes.hexValue? a, Bytes.hexValue? b with
    | some h, some l => UInt8.ofNat (16 * h + l) :: unescaped rest
    | _, _ => Bytes.ofText "%" ++ unescaped (a :: b :: rest)
  | c :: rest => Bytes.ofText (String.singleton c) ++ unescaped rest
termination_by s => s.length

/-- A name or a value of a query, in which a plus stands for a blank. -/
private def queryText (s : String) : String :=
  Bytes.toText (unescaped (s.toList.map fun c => if c = '+' then ' ' else c))

/-- The last value that the query gives to a name. -/
def parameter? (locator : Locator) (name : String) : Option String :=
  ((String.ofList locator.query).splitOn "&").reverse.findSome? fun pair =>
    match pair.splitOn "=" with
    | first :: rest =>
      if queryText first = name then some (queryText (String.intercalate "=" rest)) else none
    | [] => none

/-! ## Reading -/

/-- Whether a login needs a host after it. A lone colon does not, and no login at all only at the
end of the text. -/
private def needsHost (login : List Char) (atEnd : Bool) : Bool :=
  if login.isEmpty then !atEnd else login ≠ [':']

/-- The locator whose scheme is followed by a text. -/
private def ofRest? (scheme : String) (s : List Char) : Option Locator :=
  let shown := s.takeWhile (· ≠ '#')
  let front := shown.takeWhile (· ≠ '?')
  let query := shown.drop (front.length + 1)
  match front with
  | '/' :: '/' :: rest =>
    let authority := rest.takeWhile (· ≠ '/')
    let path := rest.drop authority.length
    let (login, server) := (splitLast '@' authority).getD ([], authority)
    (host? server).bind fun (host, after) => (port? after).bind fun (port, tail) =>
      if server.isEmpty && authority.contains '@' &&
          needsHost login (s.length = authority.length + 2) then none
      else
        let username := login.takeWhile (· ≠ ':')
        let password := login.drop (username.length + 1)
        let path := if tail.isEmpty then path else '/' :: tail ++ path
        some ⟨scheme, username, password, host, port, resolved path, query⟩
  | _ => some { scheme, path := resolved front, query }

def read? (text : String) : Option Locator :=
  (scheme? (cleaned text.toList)).bind fun (scheme, rest) => ofRest? scheme rest

end Locator
end ResultCache.Redis
