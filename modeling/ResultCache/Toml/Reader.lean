import ResultCache.Toml.Scalar

/-!
# Reading TOML keys and values

Readers take the characters that are left and answer a result with the characters after it, or
nothing. Loops are given how many rounds suffice; one more than the length of the document does.
Values and keys may only be so deep.
-/

namespace ResultCache.Toml

/-- The characters after blanks and tabs. -/
def skipBlanks (s : List Char) : List Char := s.dropWhile fun c => c = ' ' || c = '\t'

/-- Whether a character may stand in a comment or a string. -/
def isPlain (c : Char) : Bool := c = '\t' || (0x20 ≤ c.toNat && c.toNat ≠ 0x7f)

/-- What follows the end of the line, if the line ends here. -/
def newline? : List Char → Option (List Char)
  | '\n' :: r => some r
  | '\r' :: '\n' :: r => some r
  | _ => none

/-- The characters after a comment, if there is one. -/
def skipComment (s : List Char) : List Char :=
  match s with
  | '#' :: r => r.dropWhile isPlain
  | _ => s

/-- The characters after blanks, comments and ends of lines. -/
private def skipLines (inComment : Bool) : List Char → List Char
  | [] => []
  | '\r' :: '\n' :: r => skipLines false r
  | c :: r =>
    if c = '\n' then skipLines false r
    else if c = ' ' || c = '\t' || (inComment && isPlain c) then skipLines inComment r
    else if c = '#' then skipLines true r
    else c :: r

/-- The characters after blanks, tabs and ends of lines. -/
private def skipBreaks : List Char → List Char
  | ' ' :: r => skipBreaks r
  | '\t' :: r => skipBreaks r
  | '\n' :: r => skipBreaks r
  | '\r' :: '\n' :: r => skipBreaks r
  | s => s

/-- The most arrays and inline tables around a value, and the most names of a key. -/
def maxDepth : Nat := 79

/-! ## Strings -/

private def codePoint? (digits : List Char) : Option Char :=
  (digits.mapM Bytes.hexValue?).bind fun values =>
    let n := values.foldl (fun n d => 16 * n + d) 0
    if n < 0xd800 ∨ (0xdfff < n ∧ n < 0x110000) then some (Char.ofNat n) else none

/-- The character of an escape, after the backslash. -/
private def escape? (s : List Char) : Option (Char × List Char) :=
  match s with
  | 'b' :: r => some ('\x08', r)
  | 't' :: r => some ('\t', r)
  | 'n' :: r => some ('\n', r)
  | 'f' :: r => some ('\x0c', r)
  | 'r' :: r => some ('\r', r)
  | '"' :: r => some ('"', r)
  | '\\' :: r => some ('\\', r)
  | 'u' :: r =>
    if r.length < 4 then none else (codePoint? (r.take 4)).map fun c => (c, r.drop 4)
  | 'U' :: r =>
    if r.length < 8 then none else (codePoint? (r.take 8)).map fun c => (c, r.drop 8)
  | _ => none

/-- The characters of a string with escapes, after its opening quote. -/
private def basic : Nat → List Char → Option (List Char × List Char)
  | 0, _ => none
  | _, [] => none
  | _, '"' :: r => some ([], r)
  | n + 1, '\\' :: r => (escape? r).bind fun (c, r) => (basic n r).map fun (cs, r) => (c :: cs, r)
  | n + 1, c :: r => if isPlain c then (basic n r).map fun (cs, r) => (c :: cs, r) else none

/-- The characters of a string without escapes, after its opening quote. -/
private def literal (s : List Char) : Option (List Char × List Char) :=
  let inner := s.takeWhile fun c => isPlain c && c ≠ '\''
  match s.drop inner.length with
  | '\'' :: r => some (inner, r)
  | _ => none

/-- The characters of a string over several lines, after its opening quotes. Up to two quotes may
stand before the closing ones. -/
private def multiline (quote : Char) (escapes : Bool) :
    Nat → List Char → Option (List Char × List Char)
  | 0, _ => none
  | n + 1, s =>
    let rest (c : Char) (r : List Char) : Option (List Char × List Char) :=
      (multiline quote escapes n r).map fun (cs, r) => (c :: cs, r)
    match s with
    | [] => none
    | c :: r =>
      let quotes := (s.takeWhile (· = quote)).length
      if 3 ≤ quotes then
        if quotes ≤ 5 then some (List.replicate (quotes - 3) quote, s.drop quotes) else none
      else if c = '\\' && escapes then
        match newline? (skipBlanks r) with
        | some r => multiline quote escapes n (skipBreaks r)
        | none => (escape? r).bind fun (c, r) => rest c r
      else
        match newline? s with
        | some r => rest '\n' r
        | none => if isPlain c then rest c r else none

private def afterFirstNewline (s : List Char) : List Char := (newline? s).getD s

/-- A string on one line, at its opening quote. -/
private def lineString (rounds : Nat) (s : List Char) : Option (String × List Char) :=
  match s with
  | '"' :: r => (basic rounds r).map fun (cs, r) => (String.ofList cs, r)
  | '\'' :: r => (literal r).map fun (cs, r) => (String.ofList cs, r)
  | _ => none

/-- A string, at its opening quote. -/
private def string (rounds : Nat) (s : List Char) : Option (String × List Char) :=
  match s with
  | '"' :: '"' :: '"' :: r =>
    (multiline '"' true rounds (afterFirstNewline r)).map fun (cs, r) => (String.ofList cs, r)
  | '\'' :: '\'' :: '\'' :: r =>
    (multiline '\'' false rounds (afterFirstNewline r)).map fun (cs, r) => (String.ofList cs, r)
  | _ => lineString rounds s

/-! ## Keys -/

private def isBare (c : Char) : Bool := c.isAlphanum || c = '_' || c = '-'

private def simpleKey (rounds : Nat) (s : List Char) : Option (String × List Char) :=
  let bare := s.takeWhile isBare
  if bare.isEmpty then lineString rounds s else some (String.ofList bare, s.drop bare.length)

private def keyWithin (rounds : Nat) : Nat → List Char → Option (List String × List Char)
  | 0, _ => none
  | n + 1, s => (simpleKey rounds (skipBlanks s)).bind fun (name, r) =>
    match skipBlanks r with
    | '.' :: r => (keyWithin rounds n r).map fun (names, r) => (name :: names, r)
    | r => some ([name], r)

/-- The names of a dotted key and what follows it and its blanks. -/
def key (rounds : Nat) (s : List Char) : Option (List String × List Char) :=
  keyWithin rounds maxDepth s

/-! ## Values -/

/-- Items up to a closing bracket. Lines may end, and a comma may stand, after any item. -/
private def itemRounds (item : List Char → Option (Node × List Char)) :
    Nat → List Char → Option (List Node × List Char)
  | 0, _ => none
  | n + 1, s =>
    match skipLines false s with
    | ']' :: r => some ([], r)
    | s => (item s).bind fun (x, r) =>
      match skipLines false r with
      | ',' :: r => (itemRounds item n r).map fun (xs, r) => (x :: xs, r)
      | ']' :: r => some ([x], r)
      | _ => none

/-- The entries of an inline table after its opening brace or a comma. -/
private def entryRounds (item : List Char → Option (Node × List Char)) (rounds : Nat) :
    Nat → Node.Body → List Char → Option (Node.Body × List Char)
  | 0, _, _ => none
  | n + 1, body, s => (key rounds s).bind fun (names, r) =>
    match r with
    | '=' :: r => (item (skipBlanks r)).bind fun (value, r) =>
      (Node.setKey names value body).bind fun body =>
        match skipBlanks r with
        | ',' :: r => entryRounds item rounds n body r
        | '\x7d' :: r => some (body, r)
        | _ => none
    | _ => none

/-- A value around which there may be so many levels still. -/
private def valueWithin (rounds levels : Nat) (s : List Char) : Option (Node × List Char) :=
  match levels, s with
  | _, '"' :: _ => (string rounds s).map fun (text, r) => (.scalar (.text text), r)
  | _, '\'' :: _ => (string rounds s).map fun (text, r) => (.scalar (.text text), r)
  | n + 1, '[' :: r =>
    (itemRounds (valueWithin rounds n) rounds r).map fun (items, r) => (.list items, r)
  | n + 1, '\x7b' :: r =>
    match skipBlanks r with
    | '\x7d' :: r => some (.table .inline [], r)
    | r =>
      (entryRounds (valueWithin rounds n) rounds rounds (.opened, []) r).map fun (body, r) =>
        (.table .inline body.2, r)
  | _, _ =>
    let extent := scalarExtent s
    (scalar? extent).map fun value => (value, s.drop extent.length)

/-- A value and what follows it. -/
def value (rounds : Nat) (s : List Char) : Option (Node × List Char) :=
  valueWithin rounds maxDepth s

end ResultCache.Toml
