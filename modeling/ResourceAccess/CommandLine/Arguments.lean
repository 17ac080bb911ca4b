import ResourceAccess.Identifier
import ResourceAccess.Path.Basic

/-!
# Arguments of the command line

Options come before the command they belong to: first those of the program, then the command's own. A value stands after
an equals sign or is the next argument, unless that starts with a hyphen. Nothing is given twice. An option whose value
is an argument of its own is looked at only when the next option comes or the command has been read, so that a command
that asks for help gets it first.
-/

namespace ResourceAccess

inductive Command where
  | check (user : Id) (path : Path) (privilege : String) (explained : Bool)
  | roles
  | privileges
  | aces
  | grant (role privilege : String)
  | revoke (role privilege : String)
  | purge (top : Path)
deriving DecidableEq

namespace CommandLine

inductive Stop where
  /-- The user asks about the program itself. -/
  | information
  | misuse
deriving DecidableEq

inductive OptionKind where
  | text
  /-- A file name, which is not empty. -/
  | file
  | flag
  | information
deriving DecidableEq

structure OptionSpec where
  name : String
  short : Option Char := none
  kind : OptionKind
deriving DecidableEq

abbrev Given := List (String × String)

def record (spec : OptionSpec) (value : String) (given : Given) : Except Stop Given :=
  if (given.lookup spec.name).isSome || (spec.kind == .file && value.isEmpty) then .error .misuse
  else .ok (given ++ [(spec.name, value)])

/-- Whether an argument is an option, so that it is nobody's value. -/
def isHyphenated (argument : String) : Bool :=
  match argument.toList with
  | '-' :: _ :: _ => true
  | _ => false

/-- What has been read of a list of options. -/
structure Reading where
  given : Given := []
  /-- The last option, if its value is the next argument or was the last one: it is still to be recorded. -/
  pending : Option (OptionSpec × Option String) := none

def Reading.settled (r : Reading) : Except Stop Given :=
  match r.pending with
  | none => .ok r.given
  | some (_, none) => .error .misuse
  | some (spec, some value) => record spec value r.given

/-- An option that needs no value, or has it with it. -/
def takeAlone (spec : OptionSpec) (value : Option String) (given : Given) : Except Stop Given :=
  match spec.kind, value with
  | .information, none => .error .information
  | .flag, none => record spec "" given
  | .text, some v => record spec v given
  | .file, some v => record spec v given
  | _, _ => .error .misuse

def needsNext (spec : OptionSpec) (value : Option String) : Bool :=
  value.isNone && (spec.kind == .text || spec.kind == .file)

/-- The option that an argument names, and the value that it brings along. -/
def named? (specs : List OptionSpec) (argument : String) : Option (OptionSpec × Option String) :=
  match argument.toList with
  | '-' :: '-' :: rest =>
    let (name, value) := rest.span (· != '=')
    (specs.find? (·.name.toList == name)).map
      (·, if value.isEmpty then none else some (String.ofList (value.drop 1)))
  | '-' :: letter :: rest =>
    (specs.find? (·.short == some letter)).map fun spec =>
      match spec.kind, rest with
      | .information, _ => (spec, none)
      | _, [] => (spec, none)
      | _, '=' :: value => (spec, some (String.ofList value))
      | _, value => (spec, some (String.ofList value))
  | _ => none

def Reading.add (spec : OptionSpec) (value : Option String) (r : Reading) : Except Stop Reading :=
  match r.settled with
  | .error stop => .error stop
  | .ok given =>
    if needsNext spec value then .ok ⟨given, some (spec, none)⟩
    else (takeAlone spec value given).map (⟨·, none⟩)

def readOptions (specs : List OptionSpec) (r : Reading) : List String → Except Stop (Reading × List String)
  | [] => .ok (r, [])
  | "--" :: rest => if rest.isEmpty then .ok (r, []) else .error .misuse
  | argument :: rest =>
    if isHyphenated argument then
      match named? specs argument with
      | none => .error .misuse
      | some (spec, value) =>
        match r.add spec value with
        | .error stop => .error stop
        | .ok r => readOptions specs r rest
    else
      match r.pending with
      | some (spec, none) => readOptions specs ⟨r.given, some (spec, some argument)⟩ rest
      | _ => .ok (r, argument :: rest)

def help : OptionSpec := ⟨"help", some 'h', .information⟩

def programOptions : List OptionSpec :=
  [⟨"config", some 'c', .file⟩, ⟨"version", some 'V', .information⟩, help]

def textOption (name : String) : OptionSpec := ⟨name, none, .text⟩

/-- The commands, with their options. -/
def commandOptions? (command : String) : Option (List OptionSpec) :=
  match command with
  | "check" =>
    some [textOption "user", textOption "path", textOption "privilege", ⟨"explain", none, .flag⟩, help]
  | "roles" => some [help]
  | "privileges" => some [help]
  | "aces" => some [help]
  | "grant" => some [textOption "role", textOption "privilege", help]
  | "revoke" => some [textOption "role", textOption "privilege", help]
  | "purge" => some [textOption "prefix", help]
  | _ => none

/-- The command with its options, if all it needs are given. -/
def command? (name : String) (given : Given) : Option Command :=
  match name with
  | "check" => do
    return .check ⟨← given.lookup "user"⟩ (.ofString (← given.lookup "path")) (← given.lookup "privilege")
      (given.lookup "explain").isSome
  | "roles" => some .roles
  | "privileges" => some .privileges
  | "aces" => some .aces
  | "grant" => do return .grant (← given.lookup "role") (← given.lookup "privilege")
  | "revoke" => do return .revoke (← given.lookup "role") (← given.lookup "privilege")
  | "purge" => do return .purge (.ofString (← given.lookup "prefix"))
  | _ => none

def helpOn : List String → Stop
  | [] => .information
  | ["help"] => .information
  | [name] => if (commandOptions? name).isSome then .information else .misuse
  | _ => .misuse

/-- The configuration file, if one is given, and the command. -/
def parse (arguments : List String) : Except Stop (Option String × Command) := do
  match ← readOptions programOptions {} arguments with
  | (_, []) => throw .misuse
  | (_, "help" :: names) => throw (helpOn names)
  | (program, name :: rest) =>
    match commandOptions? name with
    | none => throw .misuse
    | some specs =>
      match ← readOptions specs {} rest with
      | (own, []) =>
        match command? name (← own.settled) with
        | none => throw .misuse
        | some command => return ((← program.settled).lookup "config", command)
      | _ => throw .misuse

/-- The database file to set up, from the arguments of the set-up program. -/
def parseSetUp (arguments : List String) : Except Stop String := do
  let specs : List OptionSpec := [⟨"database", some 'd', .file⟩, ⟨"version", some 'V', .information⟩, help]
  match ← readOptions specs {} arguments with
  | (options, []) =>
    match (← options.settled).lookup "database" with
    | none => throw .misuse
    | some file => return file
  | _ => throw .misuse

end CommandLine

end ResourceAccess
