import ResourceAccess.Store.Basic

/-!
# Roles and the privileges attached to them

Role names are unique, and a built-in role can be neither changed nor deleted. Attaching and detaching a privilege
re-stamps the role; attaching one that is attached already does nothing. Deleting a role deletes its memberships and
the entries that give it.

* `Store.attach_of_mem`: attaching twice is attaching once
-/

namespace ResourceAccess

/-- The fields to set in a role; an unset field keeps what is stored. -/
structure RoleUpdate where
  name : Option String := none
  description : Option String := none
deriving DecidableEq

namespace Store

/-! ## Reading -/

def privilegesOf (s : Store) (role : Id) : List Privilege :=
  sortedBy (·.name) (s.privileges.filter fun p => s.memberships.contains ⟨role, p.id⟩)

def load (s : Store) (row : RoleRow) : Role := { row with privileges := s.privilegesOf row.id }

def role? (s : Store) (id : Id) : Option Role := (s.roleRow? id).map s.load

def roleNamed? (s : Store) (name : String) : Option Role := (s.roleRowNamed? name).map s.load

/-- Each role that has a privilege, with the privilege, in the order of the privileges' names. -/
def attachments (s : Store) : List (Id × Privilege) :=
  sortedBy (·.2.name) (s.memberships.flatMap fun m =>
    (s.privileges.filter (·.id == m.privilege)).map (m.role, ·))

/-- All roles by name. The attachments are read once for all of them, and each role is given its own. -/
def roleList (s : Store) : List Role :=
  let attachments := s.attachments
  (sortedBy (·.name) s.roles).map fun row =>
    { row with privileges := (attachments.filter (·.1 == row.id)).map (·.2) }

/-! ## Rows -/

def insertRole (now : Stamp) (name : String) (description : Option String) (builtin : Bool) (s : Store) :
    RoleRow × Store :=
  let row : RoleRow := ⟨.issue .role (s.issued.roles + 1), name, description, builtin, now, now⟩
  (row, { s with
    roles := s.roles ++ [row]
    issued := { s.issued with roles := s.issued.roles + 1 } })

def createRole (now : Stamp) (name : String) (description : Option String) (s : Store) : Outcome Role :=
  if s.roles.any (·.name == name) then .error (.conflict .role name)
  else
    let (row, after) := s.insertRole now name description false
    .ok (after.load row, after)

def updateRole (now : Stamp) (id : Id) (update : RoleUpdate) (s : Store) : Outcome (Option Role) :=
  match s.roleRow? id with
  | none => .ok (none, s)
  | some current =>
    if current.builtin then .error (.builtinRole current.name)
    else
      let changed := { current with
        name := update.name.getD current.name
        description := update.description <|> current.description
        updated := now }
      if s.roles.any (fun r => r.id != id && r.name == changed.name) then
        .error (.conflict .role changed.name)
      else
        let after := { s with roles := s.roles.map fun r => if r.id = id then changed else r }
        .ok (some (after.load changed), after)

def deleteRole (id : Id) (s : Store) : Outcome Bool :=
  match s.roleRow? id with
  | none => .ok (false, s)
  | some current =>
    if current.builtin then .error (.builtinRole current.name)
    else
      .ok (true, { s with
        roles := s.roles.filter (·.id != id)
        memberships := s.memberships.filter (·.role != id)
        aces := s.aces.filter (·.role != id) })

/-! ## Memberships -/

def attach (role privilege : Id) (s : Store) : Store :=
  if s.memberships.contains ⟨role, privilege⟩ then s
  else { s with memberships := s.memberships ++ [⟨role, privilege⟩] }

theorem attach_of_mem {role privilege : Id} {s : Store} (h : Membership.mk role privilege ∈ s.memberships) :
    s.attach role privilege = s := by
  simp [attach, h]

theorem attach_of_not_mem {role privilege : Id} {s : Store} (h : Membership.mk role privilege ∉ s.memberships) :
    s.attach role privilege = { s with memberships := s.memberships ++ [⟨role, privilege⟩] } := by
  simp [attach, h]

def touchRole (now : Stamp) (id : Id) (s : Store) : Store :=
  { s with roles := s.roles.map fun r => if r.id = id then { r with updated := now } else r }

def addPrivilege (now : Stamp) (role privilege : Id) (s : Store) : Outcome Role :=
  match s.roleRow? role with
  | none => .error (.notFound .role role)
  | some row =>
    match s.privilege? privilege with
    | none => .error (.notFound .privilege privilege)
    | some _ =>
      if s.memberships.contains ⟨role, privilege⟩ then .ok (s.load row, s)
      else
        let after := (s.attach role privilege).touchRole now role
        .ok (after.load { row with updated := now }, after)

def removePrivilege (now : Stamp) (role privilege : Id) (s : Store) : Outcome Role :=
  match s.roleRow? role with
  | none => .error (.notFound .role role)
  | some row =>
    if s.memberships.contains ⟨role, privilege⟩ then
      let detached := { s with memberships := s.memberships.filter (· != Membership.mk role privilege) }
      let after := detached.touchRole now role
      .ok (after.load { row with updated := now }, after)
    else .error (.notMember privilege role)

end Store

end ResourceAccess
