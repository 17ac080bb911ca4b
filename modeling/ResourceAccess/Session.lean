import ResourceAccess.Engine
import ResourceAccess.SetUp

/-!
# Sessions

A session is an engine in memory or on a database file. The file comes into being with the first request that needs
the engine, or by a set-up, which insists that there is none yet. The names of files are plain: a name with a question
mark or a percent sign in it, a name that stands for a store in memory, and a second name of one file are outside what
is promised.

* `Session.run_setUp_present`: a file that is there is never set up again
-/

namespace ResourceAccess

structure DatabaseFile where
  name : String
  present : Bool := false
deriving DecidableEq

structure Session where
  engine : Engine
  file : Option DatabaseFile := none
deriving DecidableEq

inductive Request where
  | operation (op : Operation)
  | healthCheck
  | setTimeout (limit : Option Duration)
  | hold
  | release
  | close
  | reopen
  | setUp (administrator : Option String)
deriving DecidableEq

inductive Failure where
  | access (error : AccessError)
  | unhealthy (fault : StorageFault)
  | databaseExists (file : String)
  /-- The request makes sense on a file only. -/
  | inMemory (request : String)
deriving DecidableEq

def Failure.message : Failure → String
  | .access error => error.message
  | .unhealthy fault => fault.message
  | .databaseExists file =>
    "Database file already exists: " ++ file ++ ". Remove it first or use a different path."
  | .inMemory request => request ++ " needs a file session"

namespace Session

def inMemory (limit : Option Duration) : Session := { engine := { limit } }

def onFile (name : String) (limit : Option Duration) : Session :=
  { engine := { limit }, file := some { name } }

/-- The session with its engine open, so that its file is there. -/
def opened (s : Session) : Session :=
  { s with file := s.file.map fun f => { f with present := true } }

def withEngine (s : Session) (e : Engine) : Session := { s.opened with engine := e }

def setUp (now : Stamp) (administrator : Option String) (s : Session) : Except Failure Unit × Session :=
  match s.file with
  | none => (.error (.inMemory "init"), s)
  | some file =>
    if file.present then (.error (.databaseExists file.name), s)
    else
      let (result, store) := Store.setUp now administrator
      (result.mapError .access, s.withEngine { s.engine with store })

/-- Asks for an operation. If its time limit runs out, it does so where it is told. -/
def ask (expiry : Option Expiry) (now : Stamp) (op : Operation) (s : Session) : Except Failure Answer × Session :=
  let (reply, engine) := s.engine.attempt expiry now op
  (reply.mapError .access, s.withEngine engine)

/-- Grants a request; what it asks of the tables is done in time. -/
def run (now : Stamp) (request : Request) (s : Session) : Except Failure Answer × Session :=
  match request with
  | .operation op => s.ask none now op
  | .healthCheck =>
    match s.engine.health with
    | .ok () => (.ok .done, s.opened)
    | .error fault => (.error (.unhealthy fault), s.opened)
  | .setTimeout limit => (.ok .done, s.withEngine { s.engine with timeout := limit })
  | .hold =>
    match s.engine.hold with
    | .ok engine => (.ok .done, s.withEngine engine)
    | .error fault => (.error (.access (.storage fault)), s.opened)
  | .release => (.ok .done, s.withEngine s.engine.release)
  | .close => (.ok .done, s.withEngine s.engine.close)
  | .reopen =>
    match s.file with
    | none => (.error (.inMemory "reopen"), s)
    | some _ => (.ok .done, s.withEngine s.engine.reopen)
  | .setUp administrator =>
    let (result, after) := s.setUp now administrator
    (result.map fun _ => .done, after)

theorem run_setUp_present {now : Stamp} {administrator : Option String} {s : Session} {file : DatabaseFile}
    (hf : s.file = some file) (hp : file.present = true) :
    s.run now (.setUp administrator) = (.error (.databaseExists file.name), s) := by
  simp [run, setUp, hf, hp, Except.map]

end Session

end ResourceAccess
