import ResourceAccess.Operation
import ResourceAccess.Procedure.Basic

/-!
# Operations as procedures

What an operation sends to the database. Rows are made and changed in a transaction, which checks first. A single
deletion is a statement of its own, and so is all that only looks. What is shown after a change is read anew, when the
time no longer counts.
-/

namespace ResourceAccess.Operation

open Procedure

variable {α β : Type}

/-- One statement that is the whole operation. -/
def single (work : Store → Reply) : Procedure Answer := attempt fun s => (work s).1.map (·, (work s).2)

def requireFree (kind : Entity) (name : String) (taken : Store → Bool) : Procedure Unit :=
  require fun s => if taken s then .error (.conflict kind name) else .ok ()

/-- A new name must be free; the one that the row has already need not be. -/
def requireNewName (kind : Entity) (current : String) (given : Option String) (taken : Store → String → Bool) :
    Procedure Unit :=
  match given with
  | none => .answer ()
  | some name => if name = current then .answer () else requireFree kind name (taken · name)

/-- Makes a row in a transaction. -/
def creating (check : Procedure Unit) (make : Store → Outcome α) (answer : α → Answer) : Procedure Answer := do
  begin
  check
  let made ← attempt make
  commit
  return answer made

/-- Changes a row in a transaction, if it is there, and shows it then. -/
def updating (find : Store → Option β) (check : β → Procedure Unit) (change : Store → Outcome α)
    (shown : Store → Answer) : Procedure Answer := do
  begin
  match ← look find with
  | none => return .absent
  | some current => do
    check current
    let _ ← attempt change
    commit
    .untimed (look shown)

/-- Changes what a role holds in a transaction, and shows the role then. -/
def regrouping (role : Id) (change : Procedure Unit) : Procedure Answer := do
  begin
  require (·.requireRole role)
  change
  commit
  .untimed (require fun s => match s.role? role with
    | some r => .ok (.role r)
    | none => .error (.notFound .role role))

def touch (now : Stamp) (role : Id) : Procedure Unit := attempt fun s => .ok ((), s.touchRole now role)

def attaching (now : Stamp) (role privilege : Id) : Procedure Unit := do
  require fun s => if (s.privilege? privilege).isSome then .ok () else .error (.notFound .privilege privilege)
  let added ← attempt fun s => .ok (!s.memberships.contains ⟨role, privilege⟩, s.attach role privilege)
  if added then touch now role

/-- Detaches a privilege from a role; only then it turns out whether the role had it. -/
def detaching (now : Stamp) (role privilege : Id) : Procedure Unit := do
  let removed ← attempt fun s =>
    .ok (s.memberships.contains ⟨role, privilege⟩,
      { s with memberships := s.memberships.filter (· != Membership.mk role privilege) })
  if removed then touch now role else .refuse (.notMember privilege role)

def writing (writes : List (Store → Store)) : Procedure Answer := do
  begin
  each writes
  commit
  return .done

def seeding (now : Stamp) : List (Store → Store) :=
  (sortedBy (·.name) Catalog.privileges).map (fun p s => s.seedPrivilege now p) ++
    (sortedBy (·.name) Catalog.roles).map (fun r s => s.seedRole now r) ++
    Catalog.memberships.map (fun names s => s.seedMembership names)

/-- The statements of an operation whose input is sound. -/
def procedure (now : Stamp) (op : Operation) : Procedure Answer :=
  match op with
  | .createUser name => do
    requireFree .user name (·.users.any (·.name == name))
    let user ← attempt (·.createUser now name)
    return .user user
  | .createRole name description =>
    creating (requireFree .role name (·.roles.any (·.name == name))) (·.createRole now name description) .role
  | .updateRole id update =>
    updating (·.roleRow? id)
      (fun current => do
        if current.builtin then .refuse (.builtinRole current.name)
        requireNewName .role current.name update.name fun s name => s.roles.any fun r => r.id != id && r.name == name)
      (·.updateRole now id update) fun s => .ofOption .role (s.role? id)
  | .deleteRole id => do
    begin
    match ← look (·.roleRow? id) with
    | none => return .flag false
    | some current => do
      if current.builtin then .refuse (.builtinRole current.name)
      let gone ← attempt (·.deleteRole id)
      commit
      return .flag gone
  | .createPrivilege name description =>
    creating (requireFree .privilege name (·.privileges.any (·.name == name)))
      (·.createPrivilege now name description) .privilege
  | .updatePrivilege id update =>
    updating (·.privilege? id)
      (fun current => requireNewName .privilege current.name update.name fun s name =>
        s.privileges.any fun p => p.id != id && p.name == name)
      (·.updatePrivilege now id update) fun s => .ofOption .privilege (s.privilege? id)
  | .addPrivilege role privilege => regrouping role (attaching now role privilege)
  | .removePrivilege role privilege => regrouping role (detaching now role privilege)
  | .createAce new =>
    creating
      (do
        require (·.requireRole new.role)
        require fun s => match new.subject? with
          | none => .error (.invalid (.subject new.kind))
          | some subject => s.requireSubject subject)
      (·.createAce now new) .ace
  | .updateAce id update =>
    updating (·.ace? id)
      (fun _ => match update.role with
        | none => .answer ()
        | some role => require (·.requireRole role))
      (·.updateAce now id update) fun s => .ofOption .ace (s.ace? id)
  | .seed => writing (seeding now)
  | op => single (op.perform now)

end ResourceAccess.Operation
