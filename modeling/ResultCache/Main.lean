import ResultCache.CommandLine

/-!
# The program

Reads arguments, environment and configuration files, runs the command, and reports its outcome.
-/

open ResultCache

/-- The variables of this process, from the list that the system keeps of them. -/
def readEnvironment : IO Environment := do
  try
    let bytes ← IO.FS.readBinFile "/proc/self/environ"
    let text := (String.fromUTF8? bytes).getD ""
    pure (Environment.ofEntries (text.splitOn "\x00"))
  catch _ => pure []

/-- A file's path and text, if it can be read. -/
def readFile? (path : String) : IO (Option (String × String)) := do
  try
    let text ← IO.FS.readFile path
    pure (some (path, text))
  catch _ => pure none

/-- The `.env` file of this directory, or of the nearest one above it that has one. -/
def readEnvironmentFile : Nat → String → IO (Option String)
  | 0, _ => pure none
  | n + 1, above => do
    match ← readFile? (above ++ ".env") with
    | some (_, text) => pure (some text)
    | none => readEnvironmentFile n (above ++ "../")

def main (args : List String) : IO UInt32 := do
  let environment ← readEnvironment
  let files ← Settings.paths.filterMapM readFile?
  let environmentFile ← readEnvironmentFile 64 ""
  let files := files ++ (environmentFile.map fun text => (".env", text)).toList
  let report := CommandLine.run Redis.Network.silent args files environment ⟨[], ()⟩
  (← IO.getStdout).putStr report.output
  match report.failure with
  | some failure => (← IO.getStderr).putStr ("Error: " ++ failure.message ++ "\n")
  | none => pure ()
  pure report.status
