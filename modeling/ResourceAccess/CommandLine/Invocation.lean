import ResourceAccess.CommandLine.Run
import ResourceAccess.Session

/-!
# Invocations beside a session

A command line is a process of its own. On the session's file it works on the same tables, whatever the state of the
session's connection; on any other file it finds an empty store. Names of files are plain here too: one that the
database would take apart, or for a store in memory, is outside what is promised.
-/

namespace ResourceAccess

namespace CommandLine

def setUpReport : Except Failure Unit → Report
  | .ok () => .done
  | .error failure => .failed (.setUp failure.message)

end CommandLine

namespace Session

open CommandLine (Report Surroundings)

def invoke (now : Stamp) (surroundings : Surroundings) (arguments : List String) (s : Session) :
    Report × Session :=
  match CommandLine.plan surroundings arguments with
  | .error report => (report, s)
  | .ok plan =>
    let pace : Pace := { limit := plan.limit, expiry := surroundings.expiry }
    if s.file.any (·.name == plan.file) then
      let (report, store) := plan.command.execute now s.engine.store pace
      (report, s.withEngine { s.engine with store })
    else ((plan.command.execute now {} pace).1, s)

end Session

end ResourceAccess
