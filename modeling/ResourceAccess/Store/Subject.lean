import ResourceAccess.Store.Basic

/-!
# Users and groups

Usernames are unique among users and group names among groups. Deleting a subject deletes the entries that bind it.
-/

namespace ResourceAccess.Store

def createUser (now : Stamp) (name : String) (s : Store) : Outcome User :=
  if s.users.any (·.name == name) then .error (.conflict .user name)
  else
    let user : User := ⟨.issue .user (s.issued.users + 1), name, now⟩
    .ok (user, { s with
      users := s.users ++ [user]
      issued := { s.issued with users := s.issued.users + 1 } })

def userList (s : Store) : List User := sortedBy (·.name) s.users

def deleteUser (id : Id) (s : Store) : Bool × Store :=
  (s.users.any (·.id == id),
    { s with
      users := s.users.filter (·.id != id)
      aces := s.aces.filter (·.subject != .user id) })

def createGroup (now : Stamp) (name : String) (s : Store) : Outcome Group :=
  if s.groups.any (·.name == name) then .error (.conflict .group name)
  else
    let group : Group := ⟨.issue .group (s.issued.groups + 1), name, now⟩
    .ok (group, { s with
      groups := s.groups ++ [group]
      issued := { s.issued with groups := s.issued.groups + 1 } })

def deleteGroup (id : Id) (s : Store) : Bool × Store :=
  (s.groups.any (·.id == id),
    { s with
      groups := s.groups.filter (·.id != id)
      aces := s.aces.filter (·.subject != .group id) })

end ResourceAccess.Store
