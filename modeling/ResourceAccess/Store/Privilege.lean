import ResourceAccess.Store.Basic

/-!
# Privileges

Names are unique. Deleting a privilege detaches it from every role and leaves the roles' own rows as they are.
-/

namespace ResourceAccess

/-- The fields to set in a privilege; an unset field keeps what is stored. -/
structure PrivilegeUpdate where
  name : Option String := none
  description : Option String := none
deriving DecidableEq

namespace Store

def insertPrivilege (now : Stamp) (name : String) (description : Option String) (s : Store) :
    Privilege × Store :=
  let privilege : Privilege := ⟨.issue .privilege (s.issued.privileges + 1), name, description, now, now⟩
  (privilege, { s with
    privileges := s.privileges ++ [privilege]
    issued := { s.issued with privileges := s.issued.privileges + 1 } })

def createPrivilege (now : Stamp) (name : String) (description : Option String) (s : Store) :
    Outcome Privilege :=
  if s.privileges.any (·.name == name) then .error (.conflict .privilege name)
  else .ok (s.insertPrivilege now name description)

def privilegeList (s : Store) : List Privilege := sortedBy (·.name) s.privileges

def updatePrivilege (now : Stamp) (id : Id) (update : PrivilegeUpdate) (s : Store) :
    Outcome (Option Privilege) :=
  match s.privilege? id with
  | none => .ok (none, s)
  | some current =>
    let changed := { current with
      name := update.name.getD current.name
      description := update.description <|> current.description
      updated := now }
    if s.privileges.any (fun p => p.id != id && p.name == changed.name) then
      .error (.conflict .privilege changed.name)
    else
      .ok (some changed, { s with
        privileges := s.privileges.map fun p => if p.id = id then changed else p })

def deletePrivilege (id : Id) (s : Store) : Bool × Store :=
  (s.privileges.any (·.id == id),
    { s with
      privileges := s.privileges.filter (·.id != id)
      memberships := s.memberships.filter (·.privilege != id) })

end Store

end ResourceAccess
