import ResultCache.Redis.Locator

/-!
# Redis addresses

An address is a locator of one of Redis's schemes. It names a host with an optional port and a
database number as its path, or the file of a socket.
-/

namespace ResultCache.Redis

/-- Why a text is no Redis address. -/
inductive AddressFault where
  /-- The text is no locator, or its scheme is none of Redis's. -/
  | malformed
  | missingHost
  | missingPath
  /-- The scheme asks for encryption, which is not supported. -/
  | encrypted
  | database
  | username
  | password
  | protocol (version : String)
  deriving DecidableEq, Repr

def AddressFault.message (fault : AddressFault) : String :=
  let kind := "- InvalidClientConfig"
  match fault with
  | .malformed => "Redis URL did not parse" ++ kind
  | .missingHost => "Missing hostname" ++ kind
  | .missingPath => "Missing path" ++ kind
  | .encrypted => "can't connect with TLS, the feature is not enabled" ++ kind
  | .database => "Invalid database number" ++ kind
  | .username => "Username is not valid UTF-8 string" ++ kind
  | .password => "Password is not valid UTF-8 string" ++ kind
  | .protocol version => "Invalid protocol version " ++ kind ++ ": " ++ version

inductive Endpoint where
  | host (name : String) (port : Nat)
  | socket (path : String)
  deriving DecidableEq, Repr

/-- A server and the database on it. -/
structure Address where
  endpoint : Endpoint
  database : Int64
  deriving DecidableEq, Repr

namespace Address

private def isUtf8 (s : List Char) : Bool :=
  (String.fromUTF8? ⟨(Locator.unescaped s).toArray⟩).isSome

private def checkProtocol (locator : Locator) : Except AddressFault Unit :=
  match locator.parameter? "protocol" with
  | none => .ok ()
  | some version =>
    if ["2", "resp2", "3", "resp3"].contains version then .ok () else .error (.protocol version)

private def strip (mark : Char) (s : List Char) : List Char :=
  ((s.dropWhile (· = mark)).reverse.dropWhile (· = mark)).reverse

private def databaseNumber (text : String) : Except AddressFault Int64 :=
  match Text.int64? text with
  | some n => .ok n
  | none => .error .database

private def ofHost (locator : Locator) : Except AddressFault Address := do
  if locator.host.isEmpty then .error .missingHost
  if locator.scheme = "rediss" then .error .encrypted
  let path := strip '/' locator.path
  let number ← if path.isEmpty then pure 0 else databaseNumber (String.ofList path)
  if !isUtf8 locator.username then .error .username
  if !isUtf8 locator.password then .error .password
  checkProtocol locator
  pure ⟨.host locator.host (locator.port.getD 6379), number⟩

private def ofSocket (locator : Locator) : Except AddressFault Address := do
  if locator.path.head? ≠ some '/' || (!locator.host.isEmpty && locator.host ≠ "localhost") then
    .error .missingPath
  let number ← match locator.parameter? "db" with
    | none => pure 0
    | some text => databaseNumber text
  checkProtocol locator
  pure ⟨.socket (Bytes.toText (Locator.unescaped locator.path)), number⟩

def parse (text : String) : Except AddressFault Address :=
  match Locator.read? text with
  | none => .error .malformed
  | some locator =>
    if ["redis", "rediss"].contains locator.scheme then ofHost locator
    else if ["unix", "redis+unix"].contains locator.scheme then ofSocket locator
    else .error .malformed

end Address
end ResultCache.Redis
