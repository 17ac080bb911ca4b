import ResourceAccess.Catalog
import ResourceAccess.Store.Ace
import ResourceAccess.Store.Privilege
import ResourceAccess.Store.Role
import ResourceAccess.Store.Subject

/-!
# Seeding the built-in catalog

Seeding adds what is missing and changes no row that is there: a catalog privilege or role whose name is taken stays as
it is, and memberships are topped up without re-stamping. New rows are made in the order of their names.

* `Store.seedPrivilege_of_mem`: a privilege whose name is taken is left alone
-/

namespace ResourceAccess.Store

def seedPrivilege (now : Stamp) (s : Store) (p : Catalog.Privilege) : Store :=
  if s.privileges.any (·.name == p.name) then s
  else (s.insertPrivilege now p.name (some p.description)).2

theorem seedPrivilege_of_mem {now : Stamp} {s : Store} {p : Catalog.Privilege}
    (h : ∃ q ∈ s.privileges, q.name = p.name) : s.seedPrivilege now p = s := by
  have : s.privileges.any (·.name == p.name) = true := by simpa using h
  simp [seedPrivilege, this]

def seedRole (now : Stamp) (s : Store) (r : Catalog.Role) : Store :=
  if s.roles.any (·.name == r.name) then s
  else (s.insertRole now r.name (some r.description) true).2

def seedMembership (s : Store) (names : String × String) : Store :=
  match s.roleRowNamed? names.1, s.privilegeNamed? names.2 with
  | some role, some privilege => s.attach role.id privilege.id
  | _, _ => s

def seed (now : Stamp) (s : Store) : Store :=
  let withPrivileges := (sortedBy (·.name) Catalog.privileges).foldl (seedPrivilege now) s
  let withRoles := (sortedBy (·.name) Catalog.roles).foldl (seedRole now) withPrivileges
  Catalog.memberships.foldl seedMembership withRoles

end ResourceAccess.Store
