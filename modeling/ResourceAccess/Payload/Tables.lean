import ResourceAccess.Payload.Record

/-!
# Tables as JSON

The whole store as one document, and the number of the last stamp with it, so that a database file can hold it.
-/

namespace ResourceAccess

open Payload

namespace Payload

/-- What an object has under a name that it must have. -/
def under {α : Type} (name : String) (decode : Json → Decoded α) (j : Json) : Decoded α :=
  match j.field? name with
  | none => .error (.missingField name)
  | some value => decode value

def count : Json → Decoded Nat
  | .number (.integer n) => if 0 ≤ n then .ok n.toNat else .error (.invalidType (.number (.integer n)) "a count")
  | j => .error (.invalidType j "a count")

end Payload

/-! ## Rows -/

def User.ofJson (j : Json) : Decoded User :=
  return ⟨← under "user_id" Id.ofJson j, ← under "username" text j, ← under "created_at" Stamp.ofJson j⟩

def Group.ofJson (j : Json) : Decoded Group :=
  return ⟨← under "user_group_id" Id.ofJson j, ← under "name" text j, ← under "created_at" Stamp.ofJson j⟩

def RoleRow.toJson (r : RoleRow) : Json :=
  .object
    [("role_id", r.id.toJson), ("name", .string r.name), ("description", .ofOption .string r.description),
     ("is_builtin", .bool r.builtin), ("created_at", r.created.toJson), ("updated_at", r.updated.toJson)]

def RoleRow.ofJson (j : Json) : Decoded RoleRow :=
  return ⟨← under "role_id" Id.ofJson j, ← under "name" text j, ← under "description" (optional text) j,
    ← under "is_builtin" flag j, ← under "created_at" Stamp.ofJson j, ← under "updated_at" Stamp.ofJson j⟩

def Membership.toJson (m : Membership) : Json :=
  .object [("role_id", m.role.toJson), ("privilege_id", m.privilege.toJson)]

def Membership.ofJson (j : Json) : Decoded Membership :=
  return ⟨← under "role_id" Id.ofJson j, ← under "privilege_id" Id.ofJson j⟩

def Subject.ofJson (j : Json) : Decoded Subject := do
  match ← under "ace_type" Payload.kind j with
  | .user => return .user (← under "user_id" Id.ofJson j)
  | .group => return .group (← under "group_id" Id.ofJson j)

def Ace.ofJson (j : Json) : Decoded Ace :=
  return ⟨← under "ace_id" Id.ofJson j, ← under "path" Path.ofJson j, ← Subject.ofJson j,
    ← under "role_id" Id.ofJson j, ← under "allowed" flag j, ← under "propagate" flag j,
    ← under "created_at" Stamp.ofJson j, ← under "updated_at" Stamp.ofJson j⟩

def Issued.toJson (i : Issued) : Json :=
  .object
    [("users", .ofNat i.users), ("groups", .ofNat i.groups), ("roles", .ofNat i.roles),
     ("privileges", .ofNat i.privileges), ("aces", .ofNat i.aces)]

def Issued.ofJson (j : Json) : Decoded Issued :=
  return ⟨← under "users" count j, ← under "groups" count j, ← under "roles" count j,
    ← under "privileges" count j, ← under "aces" count j⟩

/-! ## The store -/

namespace Store

def toJson (s : Store) : Json :=
  .object
    [("users", .array (s.users.map User.toJson)), ("groups", .array (s.groups.map Group.toJson)),
     ("roles", .array (s.roles.map RoleRow.toJson)),
     ("privileges", .array (s.privileges.map Privilege.toJson)),
     ("memberships", .array (s.memberships.map Membership.toJson)),
     ("aces", .array (s.aces.map Ace.toJson)), ("issued", s.issued.toJson)]

def ofJson (j : Json) : Decoded Store :=
  return ⟨← under "users" (Payload.list User.ofJson) j, ← under "groups" (Payload.list Group.ofJson) j,
    ← under "roles" (Payload.list RoleRow.ofJson) j, ← under "privileges" (Payload.list Privilege.ofJson) j,
    ← under "memberships" (Payload.list Membership.ofJson) j, ← under "aces" (Payload.list Ace.ofJson) j,
    ← under "issued" Issued.ofJson j⟩

end Store

/-- What a database file holds. -/
structure Archive where
  store : Store := {}
  clock : Nat := 0
deriving DecidableEq

namespace Archive

def stamp (a : Archive) : Stamp := ⟨toString (a.clock + 1)⟩

def next (a : Archive) (store : Store) : Archive := ⟨store, a.clock + 1⟩

def toJson (a : Archive) : Json := .object [("store", a.store.toJson), ("clock", .ofNat a.clock)]

def ofJson (j : Json) : Decoded Archive := return ⟨← under "store" Store.ofJson j, ← under "clock" count j⟩

end Archive

end ResourceAccess
