import ResourceAccess.Duration
import ResourceAccess.Identifier
import ResourceAccess.Path.Valid

/-!
# Why an operation is refused

`AccessError` lists the causes, `InvalidInput` those that lie in the input alone; `message` gives the wording of each.
-/

namespace ResourceAccess

inductive SubjectKind where
  | user
  | group
deriving DecidableEq

def SubjectKind.word : SubjectKind → String
  | .user => "user"
  | .group => "group"

inductive InvalidInput where
  | path (fault : Path.Fault)
  | privilegeName (name : String)
  | blankUsername
  | blankGroupName
  | blankRoleName
  | subjectKind (text : String)
  /-- An entry of this kind came without its subject, or with the other one. -/
  | subject (kind : SubjectKind)
deriving DecidableEq

namespace InvalidInput

def field : InvalidInput → String
  | .path _ => "path"
  | .privilegeName _ => "name"
  | .blankUsername => "username"
  | .blankGroupName => "name"
  | .blankRoleName => "name"
  | .subjectKind _ => "ace_type"
  | .subject _ => "subject"

def reason : InvalidInput → String
  | .path fault => fault.message
  | .privilegeName name => "privilege '" ++ name ++ "' must look like 'Resource.Action'"
  | .blankUsername => "username cannot be empty"
  | .blankGroupName => "group name cannot be empty"
  | .blankRoleName => "role name cannot be empty"
  | .subjectKind text => "unknown ACE type '" ++ text ++ "'"
  | .subject kind => "a " ++ kind.word ++ " ACE needs exactly one subject, its " ++ kind.word ++ "_id"

def message (i : InvalidInput) : String := "invalid " ++ i.field ++ ": " ++ i.reason

end InvalidInput

def SubjectKind.ofText (text : String) : Except InvalidInput SubjectKind :=
  if text = "user" then .ok .user
  else if text = "group" then .ok .group
  else .error (.subjectKind text)

inductive StorageFault where
  | closed
  | exhausted
deriving DecidableEq

def StorageFault.message : StorageFault → String
  | .closed => "attempted to acquire a connection on a closed pool"
  | .exhausted => "pool timed out while waiting for an open connection"

inductive AccessError where
  | notFound (kind : Entity) (id : Id)
  | conflict (kind : Entity) (name : String)
  | notMember (privilege role : Id)
  | builtinRole (name : String)
  | invalid (input : InvalidInput)
  | timeout (limit : Duration)
  | storage (fault : StorageFault)
deriving DecidableEq

def AccessError.message : AccessError → String
  | .notFound kind id => kind.word ++ " not found: " ++ id.text
  | .conflict kind name => kind.word ++ " '" ++ name ++ "' already exists"
  | .notMember privilege role => "privilege " ++ privilege.text ++ " is not a member of role " ++ role.text
  | .builtinRole name => "role '" ++ name ++ "' is built in and cannot be modified"
  | .invalid input => input.message
  | .timeout limit => "operation timed out after " ++ limit.text
  | .storage fault => "storage failure: " ++ fault.message

end ResourceAccess
