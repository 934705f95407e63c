import ResultCache.Config.Record
import ResultCache.Config.Settings
import ResultCache.Json.Fault

/-!
# Settings from JSON

Settings as a JSON value: every value must be of the kind that its field asks for, and the first
that is not is reported. The fields of an object are looked at in the order of their names.
-/

namespace ResultCache

open Json (Mismatch)

namespace SettingsJson

private def refuse {α : Type} (expected : String) (value : Json) : Except Mismatch α :=
  .error (.type value.found expected)

private def text : Json → Except Mismatch String
  | .string s => .ok s
  | value => refuse "a string" value

private def word : Json → Except Mismatch UInt64
  | .integer n =>
    if 0 ≤ n.val then .ok (UInt64.ofNat n.val.toNat)
    else .error (.value (.integer n.val) "u64")
  | value => refuse "u64" value

/-- Null counts as not given. -/
private def optional {α : Type} (read : Json → Except Mismatch α) :
    Json → Except Mismatch (Option α)
  | .null => .ok none
  | value => (read value).map some

private def texts : Json → Except Mismatch (List String)
  | .array items => items.mapM text
  | value => refuse "a sequence" value

private def formatNamed (name : String) : Except Mismatch LogFormat :=
  if name = "pretty" then .ok .pretty
  else if name = "json" then .ok .json
  else .error (.variant name ["pretty", "json"])

/-- A format by its name, or as the only name of an object whose value is null. -/
private def format : Json → Except Mismatch LogFormat
  | .string name => formatNamed name
  | .object [(name, value)] =>
    match formatNamed name, value with
    | .error e, _ => .error e
    | .ok format, .null => .ok format
    | .ok _, value => refuse "unit" value
  | .object _ => .error (.value .map "map with a single key")
  | value => refuse "string or map" value

/-- A record of the given name. A list may be shorter than the fields, but not longer. -/
private def record {τ : Type} (name : String) (fields : List (RecordField Json Mismatch τ))
    (default : τ) : Json → Except Mismatch τ
  | .object entries => RecordField.setNamed fields entries default
  | .array items =>
    match RecordField.setListed fields items default with
    | .error e => .error e
    | .ok record =>
      if fields.length < items.length then
        .error (.length items.length "fewer elements in array")
      else .ok record
  | value => refuse ("struct " ++ name) value

def log : Json → Except Mismatch LogSettings :=
  record "LoggingConfig" [
    .of "level" text fun x r => { r with level := x },
    .of "format" format fun x r => { r with format := x }] {}

def cache : Json → Except Mismatch CacheSettings :=
  record "CacheSettings" [
    .of "backend" text fun x r => { r with backend := x },
    .of "redis_url" (optional text) fun x r => { r with redisUrl := x },
    .of "key_prefix" (optional text) fun x r => { r with keyPrefix := x },
    .of "default_ttl_secs" word fun x r => { r with defaultTtl := x },
    .of "max_capacity" (optional word) fun x r => { r with maxCapacity := x },
    .of "time_to_idle_secs" (optional word) fun x r => { r with timeToIdle := x }] {}

def settings : Json → Except Mismatch Settings :=
  record "AppConfig" [
    .of "logging" log fun x r => { r with log := x },
    .of "cache" cache fun x r => { r with cache := x },
    .of "environment_id" (optional text) fun x r => { r with environment := x },
    .of "namespaces" texts fun x r => { r with namespaces := x }] {}

end SettingsJson
end ResultCache
