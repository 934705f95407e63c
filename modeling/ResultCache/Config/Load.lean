import ResultCache.Config.Environment
import ResultCache.Config.Record
import ResultCache.Config.Settings
import ResultCache.Json.Decode
import ResultCache.Toml.Document

/-!
# Loading settings

The settings of a process come from two files and from the environment, later sources over earlier
ones, field by field. Scalars convert freely to what a field asks for.
-/

namespace ResultCache

inductive LoadFault where
  /-- A file that cannot be read in the format of its name. -/
  | malformed (path : String)
  | unsuitable (wanted : String)
  /-- A name that leads to a place that no list has. -/
  | outOfReach
  deriving DecidableEq, Repr

/-- The files of a process: texts by path. -/
abbrev Files := List (String × String)

namespace SettingsTree

private def refuse {α : Type} (wanted : String) : Except LoadFault α := .error (.unsuitable wanted)

private def converted {α : Type} (wanted : String) (convert : Tree → Option α) (tree : Tree) :
    Except LoadFault α :=
  match convert tree with
  | some x => .ok x
  | none => refuse wanted

private def text : Tree → Except LoadFault String := converted "text" Tree.toText?

private def word : Tree → Except LoadFault UInt64 := converted "natural number" Tree.toWord?

private def optional {α : Type} (read : Tree → Except LoadFault α) :
    Tree → Except LoadFault (Option α)
  | .nothing => .ok none
  | tree => (read tree).map some

private def texts : Tree → Except LoadFault (List String)
  | .list items => items.mapM text
  | _ => refuse "list"

private def formatNamed (name : String) : Except LoadFault LogFormat :=
  let lower := Text.lower name
  if lower = "pretty" then .ok .pretty
  else if lower = "json" then .ok .json
  else refuse "format"

/-- A format by its name in any case, or as the only name of a section. -/
private def format : Tree → Except LoadFault LogFormat
  | .text name => formatNamed name
  | .section [(name, _)] => formatNamed name
  | _ => refuse "format"

/-- A record; a list may be shorter or longer than the fields. -/
private def record {τ : Type} (fields : List (RecordField Tree LoadFault τ)) (default : τ) :
    Tree → Except LoadFault τ
  | .section entries => RecordField.setNamed fields entries default
  | .list items => RecordField.setListed fields items default
  | _ => refuse "section"

def log : Tree → Except LoadFault LogSettings :=
  record [
    .of "level" text fun x r => { r with level := x },
    .of "format" format fun x r => { r with format := x }] {}

def cache : Tree → Except LoadFault CacheSettings :=
  record [
    .of "backend" text fun x r => { r with backend := x },
    .of "redis_url" (optional text) fun x r => { r with redisUrl := x },
    .of "key_prefix" (optional text) fun x r => { r with keyPrefix := x },
    .of "default_ttl_secs" word fun x r => { r with defaultTtl := x },
    .of "max_capacity" (optional word) fun x r => { r with maxCapacity := x },
    .of "time_to_idle_secs" (optional word) fun x r => { r with timeToIdle := x }] {}

def settings : Tree → Except LoadFault Settings :=
  record [
    .of "logging" log fun x r => { r with log := x },
    .of "cache" cache fun x r => { r with cache := x },
    .of "environment_id" (optional text) fun x r => { r with environment := x },
    .of "namespaces" texts fun x r => { r with namespaces := x }] {}

end SettingsTree

namespace Settings

private def ofJsonFile (path text : String) : Except LoadFault (List (String × Tree)) :=
  match Json.decode Json.value text with
  | .ok (.object fields) => .ok (Tree.ofJsonFields fields)
  | _ => .error (.malformed path)

private def ofTomlFile (path text : String) : Except LoadFault (List (String × Tree)) :=
  match Toml.parse? text with
  | some entries => .ok entries
  | none => .error (.malformed path)

/-- The entries of the file with the given name and the extension of its format. Without such a
file there are none. -/
def fileEntries (files : Files) (name : String) : Except LoadFault (List (String × Tree)) :=
  if (files.lookup name).isSome then .ok []
  else
    match files.lookup (name ++ ".toml"), files.lookup (name ++ ".json") with
    | some text, _ => ofTomlFile (name ++ ".toml") text
    | none, some text => ofJsonFile (name ++ ".json") text
    | none, none => .ok []

def paths : List String :=
  ["config/default", "config/default.toml", "config/default.json",
    "config/local", "config/local.toml", "config/local.json"]

private def lay (entries : List (String × Tree)) (tree : Tree) : Except LoadFault Tree :=
  match Tree.layer entries tree with
  | some tree => .ok tree
  | none => .error .outOfReach

def load (files : Files) (environment : Environment) : Except LoadFault Settings := do
  let tree ← lay (← fileEntries files "config/default") (.section [])
  let tree ← lay (← fileEntries files "config/local") tree
  let tree ← lay environment.entries tree
  SettingsTree.settings tree

end Settings
end ResultCache
