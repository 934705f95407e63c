import ResultCache.Text.Number
import ResultCache.Text.Quoted

/-!
# Redis replies

What a server answers to one command, and what a client reads from it.
-/

namespace ResultCache.Redis

inductive Reply where
  | nil
  | int (n : Int64)
  /-- A text of any length. -/
  | bulk (s : String)
  /-- A short status line. -/
  | status (s : String)
  | array (items : List Reply)
  /-- An error line: a code and, after a blank, what happened. -/
  | failure (line : String)
  deriving Repr

/-- Why a command gave no usable answer. -/
inductive CallFault where
  /-- The server answered with an error line. -/
  | signalled (line : String)
  /-- The reply is not of the kind that the command asks for. -/
  | incompatible (wanted : String) (reply : String)
  /-- There is no connection, in the words of whoever noticed. -/
  | disconnected (reason : String)
  deriving DecidableEq, Repr

namespace Reply

variable {α : Type}

mutual
def describe : Reply → String
  | .nil => "nil"
  | .int n => "int(" ++ toString n.toInt ++ ")"
  | .bulk s => "bulk-string('" ++ Text.quoted s ++ "')"
  | .status s => if s = "OK" then "ok" else "simple-string(" ++ Text.quoted s ++ ")"
  | .array items => "array([" ++ describeItems items ++ "])"
  | .failure line => "server-error(" ++ Text.quoted line ++ ")"

def describeItems : List Reply → String
  | [] => ""
  | [item] => describe item
  | item :: rest => describe item ++ ", " ++ describeItems rest
end

private def incompatible (wanted : String) (reply : Reply) : Except CallFault α :=
  .error (.incompatible wanted reply.describe)

/-- A text: numbers and statuses count as texts. -/
def text : Reply → Except CallFault String
  | .bulk s => .ok s
  | .status s => .ok s
  | .int n => .ok (toString n.toInt)
  | .failure line => .error (.signalled line)
  | reply => incompatible "Response type not string compatible." reply

/-- A text, or nothing for nil. -/
def text? : Reply → Except CallFault (Option String)
  | .nil => .ok none
  | reply => reply.text.map some

private def parsed (convert : String → Option α) (reply : Reply) (s : String) :
    Except CallFault α :=
  match convert s with
  | some x => .ok x
  | none => incompatible "Could not convert from string." reply

/-- A count of signed 64 bits. -/
def int64 : Reply → Except CallFault Int64
  | .int n => .ok n
  | .bulk s => parsed Text.int64? (.bulk s) s
  | .status s => parsed Text.int64? (.status s) s
  | .failure line => .error (.signalled line)
  | reply => incompatible "Response type not convertible to numeric." reply

/-- A count of signed 32 bits: the low bits of a larger number. -/
def int32 (reply : Reply) : Except CallFault Int32 := reply.int64.map Int64.toInt32

/-- A count of unsigned 64 bits: the bits of a negative number. -/
def uint64 : Reply → Except CallFault UInt64
  | .int n => .ok n.toUInt64
  | .bulk s => parsed Text.uint64? (.bulk s) s
  | .status s => parsed Text.uint64? (.status s) s
  | .failure line => .error (.signalled line)
  | reply => incompatible "Response type not convertible to numeric." reply

@[simp] theorem uint64_bulk_toString (w : UInt64) :
    (bulk (toString w.toNat)).uint64 = .ok w := by
  rw [uint64, parsed, Text.uint64?_toString]

def bool : Reply → Except CallFault Bool
  | .nil => .ok false
  | .int n => .ok (n ≠ 0)
  | .status "OK" => .ok true
  | .status "1" => .ok true
  | .status "0" => .ok false
  | .bulk "1" => .ok true
  | .bulk "0" => .ok false
  | .failure line => .error (.signalled line)
  | reply => incompatible "Response type not bool compatible." reply

/-- Any reply but an error. -/
def ignored : Reply → Except CallFault Unit
  | .failure line => .error (.signalled line)
  | _ => .ok ()

/-- A page of a scan: the next cursor and the keys found. -/
def page : Reply → Except CallFault (UInt64 × List String)
  | .array [cursor, .array keys] => do pure (← cursor.uint64, ← keys.mapM text)
  | .array [cursor, .nil] => do pure (← cursor.uint64, [])
  | .array [cursor, key] => do pure (← cursor.uint64, [← key.text])
  | .failure line => .error (.signalled line)
  | reply => incompatible "Bulk response of wrong dimension" reply

end Reply

namespace CallFault

/-- Codes that are no kind of their own are reported as they are. -/
private def kind? (code : String) : Option String :=
  [("ERR", "ResponseError"), ("EXECABORT", "ExecAbortError"), ("LOADING", "BusyLoadingError"),
    ("NOSCRIPT", "NoScriptError"), ("MOVED", "Moved"), ("ASK", "Ask"), ("TRYAGAIN", "TryAgain"),
    ("CLUSTERDOWN", "ClusterDown"), ("CROSSSLOT", "CrossSlot"), ("MASTERDOWN", "MasterDown"),
    ("READONLY", "ReadOnly"), ("NOTBUSY", "NotBusy")].lookup code

def message : CallFault → String
  | .signalled line =>
    let code := line.toList.takeWhile (· ≠ ' ')
    let detail := String.ofList (line.toList.drop (code.length + 1))
    match kind? (String.ofList code) with
    | some kind =>
      if code.length < line.length then
        "An error was signalled by the server - " ++ kind ++ ": " ++ detail
      else "An error was signalled by the server- " ++ kind
    | none => String.ofList code ++ ": " ++ detail
  | .incompatible wanted reply =>
    "Response was of incompatible type - TypeError: " ++ wanted ++ " (response was " ++ reply ++ ")"
  | .disconnected reason => reason

end CallFault
end ResultCache.Redis
