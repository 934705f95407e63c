import ResultCache.Config.EnvironmentFile
import ResultCache.Config.Load
import ResultCache.Registry

/-!
# The command line

Two commands over the configured caches: `check` reports the size of each, and `flush` empties one.
Arguments are understood before any setting is read.
-/

namespace ResultCache.CommandLine

inductive Request where
  | check
  | flush (name : String)
  /-- Only a text, such as help. -/
  | print (text : String)
  | misuse
  deriving DecidableEq, Repr

def versionText : String := "pmp-query-cache 0.1.0\n"

def helpText : String :=
  "Transactional second-level query cache for mapped statement execution\n\n" ++
  "Usage: pmp-query-cache <COMMAND>\n\n" ++
  "Commands:\n" ++
  "  check  Connect to every configured cache and report its size\n" ++
  "  flush  Clear a shared named cache\n" ++
  "  help   Print this message or the help of the given subcommand(s)\n\n" ++
  "Options:\n" ++
  "  -h, --help     Print help\n" ++
  "  -V, --version  Print version\n"

def checkHelpText : String :=
  "Connect to every configured cache and report its size\n\n" ++
  "Usage: pmp-query-cache check\n\n" ++
  "Options:\n" ++
  "  -h, --help  Print help\n"

def flushHelpText : String :=
  "Clear a shared named cache\n\n" ++
  "Usage: pmp-query-cache flush --namespace <NAMESPACE>\n\n" ++
  "Options:\n" ++
  "  -n, --namespace <NAMESPACE>  Namespace of the cache to clear\n" ++
  "  -h, --help                   Print help\n"

def helpHelpText : String :=
  "Print this message or the help of the given subcommand(s)\n\n" ++
  "Usage: pmp-query-cache help [COMMAND]...\n\n" ++
  "Arguments:\n" ++
  "  [COMMAND]...  Print help for the subcommand(s)\n"

private def startsWith (start : String) (arg : String) : Bool :=
  start.toList.isPrefixOf arg.toList

private def after (start : String) (arg : String) : String :=
  String.ofList (arg.toList.drop start.length)

private def isHelp (arg : String) : Bool := arg = "--help" || startsWith "-h" arg

/-- The arguments of `check`. A lone double dash may end them. -/
def parseCheck : List String → Request
  | [] => .check
  | ["--"] => .check
  | arg :: _ => if isHelp arg then .print checkHelpText else .misuse

/-- The value of `-n` that is attached to it, without an equals sign before it. -/
private def attached (value : String) : String :=
  if startsWith "=" value then after "=" value else value

/-- Whether an argument cannot stand as a value of its own. -/
private def isOption (arg : String) : Bool := startsWith "-" arg && arg ≠ "-"

/-- The arguments of `flush`, given the namespace found so far. -/
def parseFlush (name : Option String) : List String → Request
  | [] =>
    match name with
    | some name => .flush name
    | none => .misuse
  | ["--"] =>
    match name with
    | some name => .flush name
    | none => .misuse
  | arg :: rest =>
    if isHelp arg then .print flushHelpText
    else if arg = "--namespace" || arg = "-n" then
      match rest with
      | value :: rest =>
        if isOption value || name.isSome then .misuse else parseFlush (some value) rest
      | [] => .misuse
    else if startsWith "--namespace=" arg && name.isNone then
      parseFlush (some (after "--namespace=" arg)) rest
    else if startsWith "-n" arg && name.isNone then
      parseFlush (some (attached (after "-n" arg))) rest
    else .misuse

private def parseHelp : List String → Request
  | [] => .print helpText
  | ["check"] => .print checkHelpText
  | ["flush"] => .print flushHelpText
  | ["help"] => .print helpHelpText
  | _ => .misuse

def parse : List String → Request
  | [] => .misuse
  | "check" :: rest => parseCheck rest
  | "flush" :: rest => parseFlush none rest
  | "help" :: rest => parseHelp rest
  | arg :: _ =>
    if isHelp arg then .print helpText
    else if arg = "--version" || startsWith "-V" arg then .print versionText
    else .misuse

inductive Failure where
  | settings (fault : LoadFault)
  | error (e : Error)
  | aborted
  /-- The `.env` file gives a variable a text that no variable can have. -/
  | unsettable
  deriving DecidableEq, Repr

namespace Failure

def ofBuild : BuildFailure → Failure
  | .error e => .error e
  | .aborted => .aborted

def message : Failure → String
  | .settings (.malformed path) => "malformed configuration file: " ++ path
  | .settings (.unsuitable wanted) => "unsuitable configuration value: not a " ++ wanted
  | .settings .outOfReach => "a configuration name leads out of a list"
  | .error e => e.message
  | .aborted => "a lifetime is longer than a thousand years"
  | .unsettable => "a variable of the environment file holds a null character"

end Failure

/-- What a run of the program leaves: its exit status, what it printed, and why it failed. -/
structure Report where
  status : UInt32
  output : String
  failure : Option Failure
  deriving DecidableEq, Repr

variable {ν : Type}

private def lines (rows : List (String × String)) : String :=
  String.join (rows.map fun (name, text) => name ++ "\t" ++ text ++ "\n")

/-- Runs a command on the caches that the settings name and answers what it prints. -/
def carryOut (network : Redis.Network ν) (settings : Settings)
    (command : Registry Handle → Action (Host ν) (List (String × String))) (host : Host ν) :
    Except Failure String × Host ν :=
  match Registry.ofSettings network settings host with
  | (.error failure, host) => (.error (Failure.ofBuild failure), host)
  | (.ok registry, host) =>
    match (command registry).runOn host with
    | (.error e, host) => (.error (.error e), host)
    | (.ok rows, host) => (.ok (lines rows), host)

/-- The lines of `check`: every namespace and its size. -/
def checkRows (network : Redis.Network ν) (registry : Registry Handle) :
    Action (Host ν) (List (String × String)) := do
  let sizes ← registry.sizes (Host.stores network.server)
  pure (sizes.map fun (name, size) => (name, toString size))

def flushRows (network : Redis.Network ν) (name : String) (registry : Registry Handle) :
    Action (Host ν) (List (String × String)) := do
  let entries ← registry.flush (Host.stores network.server) name
  pure [(name, toString entries ++ " entries removed")]

/-- The exit status of a failure. Some kinds end the program at once. -/
def Failure.status : Failure → UInt32
  | .aborted => 101
  | .unsettable => 101
  | .settings .outOfReach => 101
  | _ => 1

private def report : Except Failure String → Report
  | .ok output => ⟨0, output, none⟩
  | .error failure => ⟨failure.status, "", some failure⟩

/-- Runs the program: the variables of a `.env` file are added to the environment, the settings are
loaded, and the command is carried out. -/
def run (network : Redis.Network ν) (args : List String) (files : Files)
    (environment : Environment) (host : Host ν) : Report :=
  let command (rows : Registry Handle → Action (Host ν) (List (String × String))) : Report :=
    let extended := match files.lookup ".env" with
      | some text => EnvironmentFile.addTo environment text
      | none => some environment
    match extended with
    | none => report (.error .unsettable)
    | some environment =>
      match Settings.load files environment with
      | .error fault => report (.error (.settings fault))
      | .ok settings => report (carryOut network settings rows host).1
  match parse args with
  | .print text => ⟨0, text, none⟩
  | .misuse => ⟨2, "", none⟩
  | .check => command (checkRows network)
  | .flush name => command (flushRows network name)

end ResultCache.CommandLine
