import ResourceAccess.CommandLine.Invocation
import ResourceAccess.Json.Reader
import ResourceAccess.Payload.Answer
import ResourceAccess.Payload.Tables

/-!
# The programs

One executable serves two programs: under a name that ends in `_init` it sets up a new database file, and under any
other name it runs one command on the configured database. A database file holds an archive as JSON.
-/

namespace ResourceAccess.Program

open CommandLine (Report Surroundings)

def readFile? (name : String) : IO (Option String) := do
  try return some (← IO.FS.readFile name)
  catch _ => return none

/-- The archive in a database file; a missing file holds an empty one, and a file that holds none is no database. -/
def readArchive? (file : String) : IO (Option Archive) := do
  match ← readFile? file with
  | none => return some {}
  | some text =>
    match (Json.parse text).map Archive.ofJson with
    | some (.ok archive) => return some archive
    | _ => return none

def writeArchive (file : String) (archive : Archive) : IO Unit :=
  IO.FS.writeFile file (archive.toJson.compact ++ "\n")

def variableNames : List String :=
  ["RBACD_DATABASE", "RBACD_DATABASE__PATH", "RBACD_DATABASE__MAX_CONNECTIONS",
   "RBACD_DATABASE__OPERATION_TIMEOUT_MS", "RBACD_LOG_FILTER"]

def readVariables : IO Environment.Variables := do
  let found ← variableNames.mapM fun name => return (← IO.getEnv name).map (name, ·)
  return found.filterMap id

def readSurroundings (arguments : List String) : IO Surroundings := do
  let environment ← readVariables
  match CommandLine.parse arguments with
  | .ok (some file, _) =>
    let text ← readFile? file
    return { document := fun name => if name = file then text else none, environment }
  | _ => return { environment }

def finish (exit : CommandLine.Exit) : IO UInt32 := do
  exit.output.forM IO.println
  exit.complaint.forM IO.eprintln
  return exit.code.toUInt32

/-- An invocation beside a session on the file. -/
def runCommand (arguments : List String) : IO UInt32 := do
  let surroundings ← readSurroundings arguments
  match CommandLine.plan surroundings arguments with
  | .error report => finish report.exit
  | .ok plan =>
    match ← readArchive? plan.file with
    | none => finish (Report.failed (.setUp ("not a database: " ++ plan.file))).exit
    | some archive =>
      let session : Session := { engine := { store := archive.store }, file := some { name := plan.file } }
      let (report, after) := session.invoke archive.stamp surroundings arguments
      writeArchive plan.file (archive.next after.engine.store)
      finish report.exit

def runSetUp (arguments : List String) : IO UInt32 := do
  match CommandLine.parseSetUp arguments with
  | .error .information => finish Report.informed.exit
  | .error .misuse => finish Report.misused.exit
  | .ok file =>
    let blank : Archive := {}
    let present := (← readFile? file).isSome
    let session : Session := { engine := {}, file := some { name := file, present } }
    let (result, after) := session.setUp blank.stamp (← IO.getEnv "RBACD_ADMIN_USERNAME")
    unless present do writeArchive file (blank.next after.engine.store)
    finish (CommandLine.setUpReport result).exit

end ResourceAccess.Program

def main (arguments : List String) : IO UInt32 := do
  if (toString (← IO.appPath)).endsWith "_init" then ResourceAccess.Program.runSetUp arguments
  else ResourceAccess.Program.runCommand arguments
