import ResourceAccess.PrivilegeName
import ResourceAccess.Store.Seed
import ResourceAccess.Text.Blank

/-!
# Operations on the store

Every operation is a value, so that a history is a list of them. `Operation.fault?` looks at the input alone, and
`Operation.perform` does the work on the tables; `Operation.run` is one after the other. A refusal leaves the store as
it was.

* `Operation.run_of_fault`: a faulty input is refused before the tables are looked at
-/

namespace ResourceAccess

inductive Operation where
  | createUser (name : String)
  | getUser (id : Id)
  | getUserNamed (name : String)
  | listUsers
  | deleteUser (id : Id)
  | createGroup (name : String)
  | getGroup (id : Id)
  | deleteGroup (id : Id)
  | createRole (name : String) (description : Option String)
  | getRole (id : Id)
  | getRoleNamed (name : String)
  | listRoles
  | updateRole (id : Id) (update : RoleUpdate)
  | deleteRole (id : Id)
  | roleHasPrivilege (id : Id) (name : String)
  | createPrivilege (name : String) (description : Option String)
  | getPrivilege (id : Id)
  | getPrivilegeNamed (name : String)
  | listPrivileges
  | listRolePrivileges (role : Id)
  | updatePrivilege (id : Id) (update : PrivilegeUpdate)
  | deletePrivilege (id : Id)
  | addPrivilege (role privilege : Id)
  | removePrivilege (role privilege : Id)
  | createAce (new : NewAce)
  | getAce (id : Id)
  | getAceAt (path : Path)
  | listAces
  | aceExists (path : Path)
  | updateAce (id : Id) (update : AceUpdate)
  | deleteAce (id : Id)
  | purge (top : Path)
  /-- A resource is gone, and the entries at and below it go with it. -/
  | resourceDeleted (path : Path)
  | candidates (user : Id) (privilege : String)
  | explain (user : Id) (path : Path) (privilege : String)
  | check (user : Id) (path : Path) (privilege : String)
  | seed
  | dump
  | healthCheck
deriving DecidableEq

inductive Answer where
  | done
  | absent
  | flag (b : Bool)
  | count (n : Nat)
  | user (u : User)
  | users (us : List User)
  | group (g : Group)
  | role (r : Role)
  | roles (rs : List Role)
  | privilege (p : Privilege)
  | privileges (ps : List Privilege)
  | ace (a : Ace)
  | aces (as : List Ace)
  | rules (rs : List Rule)
  | decision (d : Decision)
  | tables (users : List User) (roles : List Role) (privileges : List Privilege) (aces : List Ace)
deriving DecidableEq

def Answer.ofOption {α : Type} (found : α → Answer) : Option α → Answer
  | none => .absent
  | some a => found a

/-- What becomes of a request: a refusal or an answer, and the store after it. -/
abbrev Reply := Except AccessError Answer × Store

namespace Reply

def read (s : Store) (a : Answer) : Reply := (.ok a, s)

def write {α : Type} (answer : α → Answer) (result : α × Store) : Reply := (.ok (answer result.1), result.2)

/-- A refusal keeps the store that was there. -/
def ofOutcome {α : Type} (answer : α → Answer) (s : Store) : Outcome α → Reply
  | .error e => (.error e, s)
  | .ok result => write answer result

end Reply

namespace Operation

/-! ## Faults of the input -/

def nameFault? (blank : InvalidInput) (name : String) : Option InvalidInput :=
  if Text.isBlank name then some blank else none

def privilegeNameFault? (name : String) : Option InvalidInput :=
  if PrivilegeName.isValid name then none else some (.privilegeName name)

/-- What is wrong with the input, whatever the store. -/
def fault? : Operation → Option InvalidInput
  | .createUser name => nameFault? .blankUsername name
  | .createGroup name => nameFault? .blankGroupName name
  | .createRole name _ => nameFault? .blankRoleName name
  | .updateRole _ update => update.name.bind (nameFault? .blankRoleName)
  | .createPrivilege name _ => privilegeNameFault? name
  | .updatePrivilege _ update => update.name.bind privilegeNameFault?
  | .createAce new => new.path.fault?.map .path
  | .updateAce _ update => update.path.bind fun path => path.fault?.map .path
  | _ => none

/-! ## Work on the tables -/

/-- The operation on the tables, its input taken as sound. -/
def perform (now : Stamp) (op : Operation) (s : Store) : Reply :=
  match op with
  | .createUser name => .ofOutcome .user s (s.createUser now name)
  | .getUser id => .read s (.ofOption .user (s.user? id))
  | .getUserNamed name => .read s (.ofOption .user (s.userNamed? name))
  | .listUsers => .read s (.users s.userList)
  | .deleteUser id => .write .flag (s.deleteUser id)
  | .createGroup name => .ofOutcome .group s (s.createGroup now name)
  | .getGroup id => .read s (.ofOption .group (s.group? id))
  | .deleteGroup id => .write .flag (s.deleteGroup id)
  | .createRole name description => .ofOutcome .role s (s.createRole now name description)
  | .getRole id => .read s (.ofOption .role (s.role? id))
  | .getRoleNamed name => .read s (.ofOption .role (s.roleNamed? name))
  | .listRoles => .read s (.roles s.roleList)
  | .updateRole id update => .ofOutcome (.ofOption .role) s (s.updateRole now id update)
  | .deleteRole id => .ofOutcome .flag s (s.deleteRole id)
  | .roleHasPrivilege id name => .read s (.ofOption (fun r => .flag (r.hasPrivilege name)) (s.role? id))
  | .createPrivilege name description => .ofOutcome .privilege s (s.createPrivilege now name description)
  | .getPrivilege id => .read s (.ofOption .privilege (s.privilege? id))
  | .getPrivilegeNamed name => .read s (.ofOption .privilege (s.privilegeNamed? name))
  | .listPrivileges => .read s (.privileges s.privilegeList)
  | .listRolePrivileges role => .read s (.privileges (s.privilegesOf role))
  | .updatePrivilege id update => .ofOutcome (.ofOption .privilege) s (s.updatePrivilege now id update)
  | .deletePrivilege id => .write .flag (s.deletePrivilege id)
  | .addPrivilege role privilege => .ofOutcome .role s (s.addPrivilege now role privilege)
  | .removePrivilege role privilege => .ofOutcome .role s (s.removePrivilege now role privilege)
  | .createAce new => .ofOutcome .ace s (s.createAce now new)
  | .getAce id => .read s (.ofOption .ace (s.ace? id))
  | .getAceAt path => .read s (.ofOption .ace (s.aceAt? path))
  | .listAces => .read s (.aces s.aceList)
  | .aceExists path => .read s (.flag (s.aces.any (·.path == path)))
  | .updateAce id update => .ofOutcome (.ofOption .ace) s (s.updateAce now id update)
  | .deleteAce id => .write .flag (s.deleteAce id)
  | .purge top => .write .count (s.purge top)
  | .resourceDeleted path => .write .count (s.purge path)
  | .candidates user privilege => .read s (.rules (s.candidates user privilege))
  | .explain user path privilege => .read s (.decision (s.explain user path privilege))
  | .check user path privilege => .read s (.flag (s.check user path privilege))
  | .seed => (.ok .done, s.seed now)
  | .dump => .read s (.tables s.userList s.roleList s.privilegeList s.aceList)
  | .healthCheck => .read s .done

def run (now : Stamp) (op : Operation) (s : Store) : Reply :=
  match op.fault? with
  | some fault => (.error (.invalid fault), s)
  | none => op.perform now s

theorem run_of_fault {now : Stamp} {op : Operation} {s : Store} {fault : InvalidInput}
    (h : op.fault? = some fault) : op.run now s = (.error (.invalid fault), s) := by
  simp [run, h]

end Operation

/-- The operations that were run, each with its stamp, the first one first. -/
abbrev History := List (Stamp × Operation)

/-- The store that a history leads to. -/
def Store.after (s : Store) (history : History) : Store :=
  history.foldl (fun s entry => (entry.2.run entry.1 s).2) s

theorem Store.after_cons (s : Store) (now : Stamp) (op : Operation) (later : History) :
    s.after ((now, op) :: later) = (op.run now s).2.after later := rfl

theorem Store.after_append (s : Store) (first later : History) :
    s.after (first ++ later) = (s.after first).after later := List.foldl_append

theorem Store.after_concat (s : Store) (history : History) (now : Stamp) (op : Operation) :
    s.after (history ++ [(now, op)]) = (op.run now (s.after history)).2 := by
  rw [after_append]
  rfl

/-- The stores that operations lead to from the empty one. -/
inductive Reachable : Store → Prop where
  | empty : Reachable {}
  | step {s : Store} (now : Stamp) (op : Operation) : Reachable s → Reachable (op.run now s).2

namespace Reachable

theorem after {s : Store} (h : Reachable s) (history : History) : Reachable (s.after history) := by
  induction history generalizing s with
  | nil => exact h
  | cons entry rest ih => exact ih (h.step entry.1 entry.2)

end Reachable

end ResourceAccess
