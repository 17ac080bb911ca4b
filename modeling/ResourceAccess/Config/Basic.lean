import ResourceAccess.Duration
import ResourceAccess.Setting

/-!
# The configuration

Four keys configure an engine. `Config.ofSetting` takes them from a merged table: a key that is absent has its default,
other keys have no influence, and the first key that does not fit is reported, `database` before `log_filter` and the
keys of `database` in ascending order.
-/

namespace ResourceAccess

structure DatabaseConfig where
  /-- The database file; in memory if there is none. -/
  path : Option String := none
  maxConnections : Nat := 10
  /-- The limit of an operation in milliseconds; none if it is zero. -/
  operationTimeoutMs : Option Nat := some 5000
deriving DecidableEq

structure Config where
  database : DatabaseConfig := {}
  logFilter : String := "rbacd=info"
deriving DecidableEq

def DatabaseConfig.operationTimeout (c : DatabaseConfig) : Option Duration :=
  (c.operationTimeoutMs.filter (0 < ·)).map Duration.ofMilliseconds

inductive ConfigFault where
  | invalidType (found : Setting) (expected : String)
  | invalidValue (found : Setting) (expected : String)

def ConfigFault.message : ConfigFault → String
  | .invalidType found expected => "invalid type: found " ++ found.naming ++ ", expected " ++ expected
  | .invalidValue found expected => "invalid value " ++ found.naming ++ ", expected " ++ expected

inductive ConfigError where
  /-- The document is not well formed, or a table in it names the source of a value. -/
  | malformed
  | badKey (keys : List String) (fault : ConfigFault)

namespace Config

abbrev Fitted (α : Type) := Except ConfigError α

/-- A whole number below a bound. -/
def natural (bound : Nat) (expected : String) (keys : List String) (s : Setting) : Fitted Nat :=
  let checked (n : Int) : Fitted Nat :=
    if 0 ≤ n && n < bound then .ok n.toNat else .error (.badKey keys (.invalidValue s expected))
  match s with
  | .signed n => checked n
  | .unsigned n => checked n
  | s => .error (.badKey keys (.invalidType s expected))

def word (keys : List String) : Setting → Fitted String
  | .text s => .ok s
  | s => .error (.badKey keys (.invalidType s "a string"))

def orDefault {α : Type} (default : α) (fit : Setting → Fitted α) : Option Setting → Fitted α
  | none => .ok default
  | some s => fit s

def pathOf (keys : List String) : Option Setting → Fitted (Option String) :=
  orDefault none fun s => (word keys s).map some

def connectionsOf (keys : List String) : Option Setting → Fitted Nat :=
  orDefault 10 (natural (Nat.pow 2 32) "u32" keys)

def timeoutOf (keys : List String) : Option Setting → Fitted (Option Nat) :=
  orDefault (some 5000) fun s => (natural (Nat.pow 2 64) "u64" keys s).map some

/-- The database's part, as a table or as the three values in the order of the record. -/
def databaseOf : Setting → Fitted DatabaseConfig
  | .table entries => do
    let maxConnections ← connectionsOf ["database", "max_connections"] (entries.lookup "max_connections")
    let operationTimeoutMs ←
      timeoutOf ["database", "operation_timeout_ms"] (entries.lookup "operation_timeout_ms")
    let path ← pathOf ["database", "path"] (entries.lookup "path")
    return { path, maxConnections, operationTimeoutMs }
  | .sequence items => do
    let path ← pathOf ["database", "0"] items[0]?
    let maxConnections ← connectionsOf ["database", "1"] items[1]?
    let operationTimeoutMs ← timeoutOf ["database", "2"] items[2]?
    return { path, maxConnections, operationTimeoutMs }
  | s => .error (.badKey ["database"] (.invalidType s "struct DatabaseConfig"))

def ofSetting (s : Setting) : Fitted Config := do
  let database ← orDefault {} databaseOf (s.find? "database")
  let logFilter ← orDefault "rbacd=info" (word ["log_filter"]) (s.find? "log_filter")
  return { database, logFilter }

end Config

end ResourceAccess
