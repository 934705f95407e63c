import ResultCache.Binary64.Rounding
import ResultCache.Json.Fault

/-!
# Reading JSON text

A reader takes the characters that are left and answers a value with the characters after it, or
why and where it stopped. Readers are given how many more containers may be opened, and loops how
many rounds suffice; the length of the text always does.
-/

namespace ResultCache.Json

variable {α : Type}

/-- A reader that stopped: why, the characters not yet consumed, and how many bytes beyond them
the fault lies. -/
structure Stop where
  cause : Cause
  rest : List Char
  ahead : Nat

/-- A reader: from how many containers it may open and the characters that are left to the value
that was read and the characters after it. -/
abbrev Reader (α : Type) := Nat → List Char → Except Stop (α × List Char)

/-- Stopped before the next character. -/
private def stopAt (cause : Cause) (rest : List Char) : Except Stop α := .error ⟨cause, rest, 0⟩

/-- Stopped on the first byte of the next character, if there is one. -/
private def stopOn (cause : Cause) (rest : List Char) : Except Stop α :=
  .error ⟨cause, rest, if rest.isEmpty then 0 else 1⟩

@[simp] theorem stopOn_eq (cause : Cause) (rest : List Char) :
    (stopOn cause rest : Except Stop α) = .error ⟨cause, rest, if rest.isEmpty then 0 else 1⟩ := rfl

/-- Whether the character may stand between tokens. -/
def isSpace (c : Char) : Bool := c = ' ' || c = '\n' || c = '\t' || c = '\r'

def skipSpaces (s : List Char) : List Char := s.dropWhile isSpace

/-! ## Literals and numbers -/

/-- The rest of a word whose first character has been recognised. -/
def word (letters : List Char) (s : List Char) : Except Stop (List Char) :=
  match letters, s with
  | [], s => .ok s
  | _ :: _, [] => stopAt .endOfValue []
  | l :: ls, c :: r => if c = l then word ls r else stopOn .expectedIdent (c :: r)

/-- Appends decimal digits to a significand as long as it fits a 64-bit word. Answers the
significand, how many digits were taken, and the characters left. -/
def takeDigits (significand count : Nat) : List Char → Nat × Nat × List Char
  | [] => (significand, count, [])
  | c :: r =>
    let next := 10 * significand + (c.toNat - 48)
    if c.isDigit ∧ next < UInt64.size then takeDigits next (count + 1) r
    else (significand, count, c :: r)

def powerOfTen (exponent : Nat) : Binary64 := Binary64.ofNat (Nat.pow 10 exponent)

/-- Divides by a power of ten; powers that have no number of their own are divided off in steps,
each of which rounds. -/
def scaleDown (x : Binary64) (exponent : Nat) : Binary64 :=
  if exponent ≤ 308 then x.quotient (powerOfTen exponent)
  else if x.isZero then x
  else scaleDown (x.quotient (powerOfTen 308)) (exponent - 308)
termination_by exponent

/-- The number `significand * 10 ^ exponent`. Significand, power and result are rounded one after
the other, so the result is not always the nearest number. -/
def scaled (negative : Bool) (significand : Nat) (exponent : Int) : Option Finite64 :=
  let x := Binary64.ofNat significand
  let magnitude :=
    if exponent < 0 then scaleDown x (-exponent).toNat
    else if exponent ≤ 308 then x.times (powerOfTen exponent.toNat)
    else if x.isZero then x
    else Binary64.ofMagnitude false Binary64.infinity
  let number := Binary64.signed negative magnitude
  if h : number.isFinite then some ⟨number, h⟩ else none

private def floatStep (negative : Bool) (significand : Nat) (exponent : Int) (rest : List Char) :
    Except Stop (Json × List Char) :=
  match scaled negative significand exponent with
  | some x => .ok (.float x, rest)
  | none => stopAt .numberOutOfRange rest

theorem floatStep_eq (negative : Bool) (significand : Nat) (exponent : Int) (rest : List Char) :
    floatStep negative significand exponent rest =
      (scaled negative significand exponent).elim (.error ⟨.numberOutOfRange, rest, 0⟩)
        fun x => .ok (.float x, rest) := by
  unfold floatStep
  cases scaled negative significand exponent <;> rfl

/-- The exponent of a number, after its mark, and the number itself. -/
def exponentPart (negative : Bool) (significand : Nat) (start : Int) (s : List Char) :
    Except Stop (Json × List Char) :=
  let (down, s) := match s with
    | '+' :: r => (false, r)
    | '-' :: r => (true, r)
    | _ => (false, s)
  match s with
  | [] => stopAt .endOfValue []
  | c :: r =>
    if c.isDigit then digits down (c.toNat - 48) r else stopOn .invalidNumber (c :: r)
where
  /-- The digits of an exponent; beyond 31 bits the number is zero or out of range. -/
  digits (down : Bool) (exponent : Nat) : List Char → Except Stop (Json × List Char)
    | [] => floatStep negative significand (if down then start - exponent else start + exponent) []
    | c :: r =>
      if c.isDigit then
        let next := 10 * exponent + (c.toNat - 48)
        if next < 0x80000000 then digits down next r
        else if significand ≠ 0 ∧ ¬ down then stopAt .numberOutOfRange r
        else floatStep negative 0 0 (r.dropWhile Char.isDigit)
      else
        let scale := if down then start - exponent else start + exponent
        floatStep negative significand scale (c :: r)

/-- What follows the digits of a number whose significand is complete. -/
def exponentOrEnd (negative : Bool) (significand : Nat) (exponent : Int) (s : List Char) :
    Except Stop (Json × List Char) :=
  match s with
  | 'e' :: r => exponentPart negative significand exponent r
  | 'E' :: r => exponentPart negative significand exponent r
  | _ => floatStep negative significand exponent s

/-- The places after the point. Digits that do not fit the significand are dropped. -/
def fractionPart (negative : Bool) (significand : Nat) (start : Int) (s : List Char) :
    Except Stop (Json × List Char) :=
  match takeDigits significand 0 s with
  | (significand, count, rest) =>
    if rest.head?.any Char.isDigit then
      exponentOrEnd negative significand (start - count) (rest.dropWhile Char.isDigit)
    else if count = 0 then
      if rest.isEmpty then stopAt .endOfValue [] else stopOn .invalidNumber rest
    else exponentOrEnd negative significand (start - count) rest

/-- A number without its sign, after its integral digits. -/
def numberEnd (negative : Bool) (significand : Nat) (s : List Char) :
    Except Stop (Json × List Char) :=
  match s with
  | '.' :: r => fractionPart negative significand 0 r
  | 'e' :: r => exponentPart negative significand 0 r
  | 'E' :: r => exponentPart negative significand 0 r
  | _ =>
    if negative ∧ (significand = 0 ∨ -(significand : Int) < Int64.minValue.toInt) then
      floatStep true significand 0 s
    else
      match JsonInteger.ofInt? (if negative then -(significand : Int) else significand) with
      | some n => .ok (.integer n, s)
      | none => stopAt .numberOutOfRange s

/-- A number after its sign. Integral digits beyond a 64-bit word only count as powers of ten. -/
def number (negative : Bool) (s : List Char) : Except Stop (Json × List Char) :=
  match s with
  | [] => stopAt .endOfValue []
  | '0' :: r =>
    if r.head?.any Char.isDigit then stopOn .invalidNumber r else numberEnd negative 0 r
  | c :: r =>
    if ¬ c.isDigit then stopOn .invalidNumber (c :: r)
    else
      match takeDigits (c.toNat - 48) 0 r with
      | (significand, _, rest) =>
        let dropped := rest.takeWhile Char.isDigit
        if dropped.isEmpty then numberEnd negative significand rest
        else
          match rest.drop dropped.length with
          | '.' :: r => fractionPart negative significand dropped.length r
          | r => exponentOrEnd negative significand dropped.length r

/-! ## Strings -/

/-- The length of the UTF-8 form. -/
def byteLength (s : List Char) : Nat := s.foldl (fun n c => n + c.utf8Size) 0

/-- Four hexadecimal digits. Four bytes are consumed whatever they are. -/
def hexEscape (s : List Char) : Except Stop (Nat × List Char) :=
  let broken : Except Stop (Nat × List Char) :=
    if byteLength (s.take 4) < 4 then stopAt .endOfString [] else .error ⟨.invalidEscape, s, 4⟩
  match s with
  | a :: b :: c :: d :: r =>
    match Bytes.hexValue? a, Bytes.hexValue? b, Bytes.hexValue? c, Bytes.hexValue? d with
    | some a, some b, some c, some d => .ok (4096 * a + 256 * b + 16 * c + d, r)
    | _, _, _, _ => broken
  | _ => broken

/-- The second half of a pair of escapes, after a first half. -/
def lowSurrogate (s : List Char) : Except Stop (Nat × List Char) :=
  match s with
  | [] => stopAt .endOfString []
  | '\\' :: [] => stopAt .endOfString []
  | '\\' :: 'u' :: r => do
    let (n, r) ← hexEscape r
    if 0xdc00 ≤ n ∧ n ≤ 0xdfff then pure (n, r) else stopAt .loneSurrogate r
  | '\\' :: r => stopOn .endOfHexEscape r
  | _ => stopOn .endOfHexEscape s

/-- The character of an escape by number. -/
def unicodeEscape (s : List Char) : Except Stop (Char × List Char) := do
  let (n, r) ← hexEscape s
  if 0xdc00 ≤ n ∧ n ≤ 0xdfff then stopAt .loneSurrogate r
  else if n < 0xd800 ∨ 0xdbff < n then pure (Char.ofNat n, r)
  else
    let (low, r) ← lowSurrogate r
    pure (Char.ofNat (0x10000 + 1024 * (n - 0xd800) + (low - 0xdc00)), r)

/-- The character of an escape, after the backslash. -/
def escape (s : List Char) : Except Stop (Char × List Char) :=
  match s with
  | [] => stopAt .endOfString []
  | '"' :: r => .ok ('"', r)
  | '\\' :: r => .ok ('\\', r)
  | '/' :: r => .ok ('/', r)
  | 'b' :: r => .ok ('\x08', r)
  | 'f' :: r => .ok ('\x0c', r)
  | 'n' :: r => .ok ('\n', r)
  | 'r' :: r => .ok ('\r', r)
  | 't' :: r => .ok ('\t', r)
  | 'u' :: r => unicodeEscape r
  | _ => stopOn .invalidEscape s

/-- The characters of a string after its opening quote, in at most the given number of rounds. -/
def stringRounds : Nat → List Char → Except Stop (List Char × List Char)
  | 0, s => stopAt .endOfString s
  | _ + 1, [] => stopAt .endOfString []
  | _ + 1, '"' :: r => .ok ([], r)
  | n + 1, '\\' :: r => do
    let (c, r) ← escape r
    let (cs, r) ← stringRounds n r
    pure (c :: cs, r)
  | n + 1, c :: r =>
    if c.toNat < 0x20 then stopOn .controlCharacter (c :: r)
    else do
      let (cs, r) ← stringRounds n r
      pure (c :: cs, r)

def stringBody (s : List Char) : Except Stop (String × List Char) := do
  let (cs, r) ← stringRounds (s.length + 1) s
  pure (String.ofList cs, r)

/-! ## Values -/

/-- A value that is no container. -/
def scalar (s : List Char) : Except Stop (Json × List Char) :=
  match s with
  | [] => stopAt .endOfValue []
  | 'n' :: r => (word ['u', 'l', 'l'] r).map fun r => (.null, r)
  | 't' :: r => (word ['r', 'u', 'e'] r).map fun r => (.bool true, r)
  | 'f' :: r => (word ['a', 'l', 's', 'e'] r).map fun r => (.bool false, r)
  | '-' :: r => number true r
  | '"' :: r => do
    let (text, r) ← stringBody r
    pure (.string text, r)
  | c :: _ => if c.isDigit then number false s else stopOn .expectedValue s

/-- Items up to a closing bracket, in at most the given number of rounds. -/
def itemRounds (item : List Char → Except Stop (α × List Char)) (first : Bool) :
    Nat → List Char → Except Stop (List α × List Char)
  | 0, s => stopAt .endOfList s
  | n + 1, s =>
    let next (s : List Char) : Except Stop (List α × List Char) := do
      let (x, r) ← item s
      let (xs, r) ← itemRounds item false n r
      pure (x :: xs, r)
    match skipSpaces s with
    | [] => stopAt .endOfList []
    | ']' :: r => .ok ([], r)
    | ',' :: r =>
      if first then next (',' :: r)
      else
        match skipSpaces r with
        | [] => stopAt .endOfValue []
        | ']' :: r => stopOn .trailingComma (']' :: r)
        | r => next r
    | s => if first then next s else stopOn .expectedListEnd s

def field (value : List Char → Except Stop (α × List Char)) (s : List Char) :
    Except Stop ((String × α) × List Char) :=
  match s with
  | '"' :: r => do
    let (name, r) ← stringBody r
    match skipSpaces r with
    | [] => stopAt .endOfObject []
    | ':' :: r => do
      let (x, r) ← value r
      pure ((name, x), r)
    | r => stopOn .expectedColon r
  | s => stopOn .keyMustBeText s

/-- Fields up to a closing brace, in at most the given number of rounds. -/
def fieldRounds (value : List Char → Except Stop (α × List Char)) (first : Bool) :
    Nat → List Char → Except Stop ((List (String × α)) × List Char)
  | 0, s => stopAt .endOfObject s
  | n + 1, s =>
    let next (s : List Char) : Except Stop ((List (String × α)) × List Char) := do
      let (x, r) ← field value s
      let (xs, r) ← fieldRounds value false n r
      pure (x :: xs, r)
    match skipSpaces s with
    | [] => stopAt .endOfObject []
    | '\x7d' :: r => .ok ([], r)
    | ',' :: r =>
      if first then next (',' :: r)
      else
        match skipSpaces r with
        | [] => stopAt .endOfValue []
        | '\x7d' :: r => stopOn .trailingComma ('\x7d' :: r)
        | r => next r
    | s => if first then next s else stopOn .expectedObjectEnd s

def items (item : List Char → Except Stop (α × List Char)) (s : List Char) :
    Except Stop (List α × List Char) :=
  itemRounds item true (s.length + 1) s

def fields (value : List Char → Except Stop (α × List Char)) (s : List Char) :
    Except Stop (Dictionary α × List Char) := do
  let (xs, r) ← fieldRounds value true (s.length + 1) s
  pure (Dictionary.ofList xs, r)

/-- Any value. The first argument says how many containers may be opened inside one another. -/
def value : Reader Json
  | 0, s =>
    match skipSpaces s with
    | '[' :: r => stopOn .tooDeep ('[' :: r)
    | '\x7b' :: r => stopOn .tooDeep ('\x7b' :: r)
    | s => scalar s
  | depth + 1, s =>
    match skipSpaces s with
    | '[' :: r => do
      let (xs, r) ← items (value depth) r
      pure (.array xs, r)
    | '\x7b' :: r => do
      let (d, r) ← fields (value depth) r
      pure (.object d.entries, r)
    | s => scalar s

end ResultCache.Json
