import ResourceAccess.CommandLine.Arguments
import ResourceAccess.Config.Load
import ResourceAccess.Engine
import ResourceAccess.Payload.Answer

/-!
# Running a command

`CommandLine.plan` finds out from the arguments, the files and the environment which command is to run on which
database, and `Command.execute` runs it there. A command says what it did by a report, and `Report.exit` is how the
program ends with it: the code, and what it prints.

* `CommandLine.plan_without_database`: nothing runs without a database
-/

namespace ResourceAccess

namespace CommandLine

inductive CommandError where
  | config (file : Option String) (error : ConfigError)
  | noDatabase
  | roleNotFound (name : String)
  | privilegeNotFound (name : String)
  | access (error : AccessError)
  /-- For failures that only a set-up has. -/
  | setUp (message : String)

def joinedKeys (keys : List String) : String := ".".intercalate keys

def CommandError.message : CommandError → String
  | .config _ .malformed => "malformed configuration"
  | .config (some file) (.badKey keys fault) =>
    fault.message ++ " for key \"default." ++ joinedKeys keys ++ "\" in " ++ file ++ " TOML file"
  | .config none (.badKey keys fault) =>
    fault.message ++ " for key \"" ++ (joinedKeys keys).map Char.toUpper ++
      "\" in `RBACD_` environment variable(s)"
  | .noDatabase =>
    "No database configured. Set database.path in the --config file or RBACD_DATABASE__PATH."
  | .roleNotFound name => "Role not found: " ++ name
  | .privilegeNotFound name => "Privilege not found: " ++ name
  | .access error => error.message
  | .setUp message => message

/-- How an invocation ends. -/
inductive Report where
  | printed (answer : Answer)
  | done
  /-- The user was told about the program. -/
  | informed
  | failed (error : CommandError)
  | misused
  /-- The program cannot go on; what it says then is left open. -/
  | aborted

/-- What is left of a program: its exit code, and a text on each channel if there is one. -/
structure Exit where
  code : Nat
  output : Option String := none
  complaint : Option String := none
deriving DecidableEq

def usage : String :=
  "Usage: rbacd [--config FILE] check --user ID --path PATH --privilege NAME [--explain]\n" ++
  "       rbacd [--config FILE] roles | privileges | aces\n" ++
  "       rbacd [--config FILE] grant | revoke --role NAME --privilege NAME\n" ++
  "       rbacd [--config FILE] purge --prefix PATH\n" ++
  "       rbacd_init --database FILE"

namespace Report

def exit : Report → Exit
  | .printed answer => { code := 0, output := some answer.text }
  | .done => { code := 0 }
  | .informed => { code := 0, output := some usage }
  | .failed error => { code := 1, complaint := some ("Error: " ++ error.message) }
  | .misused => { code := 2, complaint := some usage }
  | .aborted => { code := 101 }

def exitCode (r : Report) : Nat := r.exit.code

end Report

/-- What an invocation can see, and how its time passes: the texts of files, the variables that are set, and where the
time limit of an operation runs out. -/
structure Surroundings where
  document : String → Option String := fun _ => none
  environment : Environment.Variables := []
  expiry : Operation → Option Expiry := fun _ => none

/-- The same surroundings, where no time limit runs out. -/
def Surroundings.inTime (s : Surroundings) : Surroundings := { s with expiry := fun _ => none }

/-- The configuration that an invocation works with; a file that is not there counts for nothing. -/
def configure (s : Surroundings) (file : Option String) : Except CommandError Config :=
  match Config.load (file.bind s.document) s.environment with
  | .ok config => .ok config
  | .error (.badKey keys fault) =>
    let ours := (Environment.setting s.environment).findAt? keys
    .error (.config (if ours.isSome then none else file) (.badKey keys fault))
  | .error error => .error (.config file error)

/-- The command to run, the database to run it on, and how long an operation may take. -/
structure Plan where
  file : String
  limit : Option Duration
  command : Command

def plan (s : Surroundings) (arguments : List String) : Except Report Plan :=
  match parse arguments with
  | .error .information => .error .informed
  | .error .misuse => .error .misused
  | .ok (file, command) =>
    match configure s file with
    | .error error => .error (.failed error)
    | .ok config =>
      match config.database.path with
      | none => .error (.failed .noDatabase)
      | some path =>
        if path.isEmpty then .error (.failed .noDatabase)
        else if config.database.maxConnections = 0 then .error .aborted
        else .ok { file := path, limit := config.database.operationTimeout, command }

theorem plan_without_database {s : Surroundings} {arguments : List String} {file : Option String}
    {command : Command} {config : Config} (hp : parse arguments = .ok (file, command))
    (hc : configure s file = .ok config) (hd : config.database.path = none) :
    plan s arguments = .error (.failed .noDatabase) := by
  simp [plan, hp, hc, hd]

end CommandLine

/-- How long operations may take, and where the limit of one runs out, if it does. -/
structure Pace where
  limit : Option Duration := none
  expiry : Operation → Option Expiry := fun _ => none

/-- An operation on a store at this pace. -/
def Pace.run (pace : Pace) (now : Stamp) (op : Operation) (s : Store) : Reply :=
  let (answer, e) := ({ store := s, limit := pace.limit } : Engine).attempt (pace.expiry op) now op
  (answer, e.store)

namespace Command

open CommandLine (Report)

def report : Reply → Report × Store
  | (.ok answer, s) => (.printed answer, s)
  | (.error error, s) => (.failed (.access error), s)

def verdict : Answer → Answer
  | .decision d => .flag d.isAllowed
  | answer => answer

/-- Runs an operation on a role and a privilege that are given by name. -/
def onMembership (now : Stamp) (op : Id → Id → Operation) (role privilege : String) (s : Store) (pace : Pace) :
    Report × Store :=
  match (pace.run now (.getRoleNamed role) s).1 with
  | .error error => (.failed (.access error), s)
  | .ok (.role r) =>
    match (pace.run now (.getPrivilegeNamed privilege) s).1 with
    | .error error => (.failed (.access error), s)
    | .ok (.privilege p) => report (pace.run now (op r.id p.id) s)
    | .ok _ => (.failed (.privilegeNotFound privilege), s)
  | .ok _ => (.failed (.roleNotFound role), s)

def execute (now : Stamp) (command : Command) (s : Store) (pace : Pace := {}) : Report × Store :=
  match command with
  | .check user path privilege explained =>
    let (answer, after) := pace.run now (.explain user path privilege) s
    report (if explained then answer else answer.map verdict, after)
  | .roles => report (pace.run now .listRoles s)
  | .privileges => report (pace.run now .listPrivileges s)
  | .aces => report (pace.run now .listAces s)
  | .grant role privilege => onMembership now .addPrivilege role privilege s pace
  | .revoke role privilege => onMembership now .removePrivilege role privilege s pace
  | .purge top => report (pace.run now (.resourceDeleted top) s)

def isRead : Command → Bool
  | .check .. => true
  | .roles => true
  | .privileges => true
  | .aces => true
  | _ => false

end Command

end ResourceAccess
