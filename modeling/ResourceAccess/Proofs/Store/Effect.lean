import Mathlib.Logic.Basic
import ResourceAccess.Proofs.Procedure.Whole

/-!
# What an operation does, case by case

`Operation.perform` is a program: it looks rows up, checks one thing after the other, and writes.  `Operation.Effect` is
the same as a relation.  Each of its cases gives an operation, what has to hold of the tables, the answer, and the store
afterwards.  Theorems about operations are case analyses over it, and none of them opens a program again.

* `Operation.Effect`: the cases, in the order in which the program looks for them
* `Operation.perform_effect`: **every operation has one of these effects**
* `Engine.run_cases`: unless its input is faulty or the connection cannot be had
* `Engine.run_error_keeps`, `Engine.run_read_keeps`: what is refused, or only looks, changes nothing
-/

namespace ResourceAccess

/-- What no two entries have in common. -/
def Ace.key (a : Ace) : Path × Subject × Id := (a.path, a.subject, a.role)

def Store.subjects (s : Store) : List Subject := s.users.map (.user ·.id) ++ s.groups.map (.group ·.id)

def RoleUpdate.apply (update : RoleUpdate) (r : RoleRow) : RoleRow :=
  { r with name := update.name.getD r.name, description := update.description <|> r.description }

def PrivilegeUpdate.apply (update : PrivilegeUpdate) (p : Privilege) : Privilege :=
  { p with name := update.name.getD p.name, description := update.description <|> p.description }

namespace Operation

def isRead : Operation → Bool
  | .getUser _ | .getUserNamed _ | .listUsers | .getGroup _ => true
  | .getRole _ | .getRoleNamed _ | .listRoles | .roleHasPrivilege _ _ => true
  | .getPrivilege _ | .getPrivilegeNamed _ | .listPrivileges | .listRolePrivileges _ => true
  | .getAce _ | .getAceAt _ | .listAces | .aceExists _ => true
  | .candidates _ _ | .explain _ _ _ | .check _ _ _ => true
  | .dump | .healthCheck => true
  | _ => false

/-- What an operation answers, and the store after it. -/
inductive Effect (now : Stamp) (s : Store) : Operation → Reply → Prop
  | read {op : Operation} {answer : Answer} (hread : op.isRead = true) : Effect now s op (.ok answer, s)
  -- users and groups
  | usernameTaken {name : String} (htaken : ∃ u ∈ s.users, u.name = name) :
    Effect now s (.createUser name) (.error (.conflict .user name), s)
  | userAdded {name : String} (hnew : ∀ u ∈ s.users, u.name ≠ name) :
    Effect now s (.createUser name) (.ok (.user ⟨.issue .user (s.issued.users + 1), name, now⟩),
      { s with
        users := s.users ++ [⟨.issue .user (s.issued.users + 1), name, now⟩]
        issued := { s.issued with users := s.issued.users + 1 } })
  | userAbsent {id : Id} (habsent : ∀ u ∈ s.users, u.id ≠ id) :
    Effect now s (.deleteUser id) (.ok (.flag false), (s.deleteUser id).2)
  | userDeleted {id : Id} (hrow : ∃ u ∈ s.users, u.id = id) :
    Effect now s (.deleteUser id) (.ok (.flag true), (s.deleteUser id).2)
  | groupNameTaken {name : String} (htaken : ∃ g ∈ s.groups, g.name = name) :
    Effect now s (.createGroup name) (.error (.conflict .group name), s)
  | groupAdded {name : String} (hnew : ∀ g ∈ s.groups, g.name ≠ name) :
    Effect now s (.createGroup name) (.ok (.group ⟨.issue .group (s.issued.groups + 1), name, now⟩),
      { s with
        groups := s.groups ++ [⟨.issue .group (s.issued.groups + 1), name, now⟩]
        issued := { s.issued with groups := s.issued.groups + 1 } })
  | groupAbsent {id : Id} (habsent : ∀ g ∈ s.groups, g.id ≠ id) :
    Effect now s (.deleteGroup id) (.ok (.flag false), (s.deleteGroup id).2)
  | groupDeleted {id : Id} (hrow : ∃ g ∈ s.groups, g.id = id) :
    Effect now s (.deleteGroup id) (.ok (.flag true), (s.deleteGroup id).2)
  -- roles
  | roleNameTaken {name : String} {description : Option String} (htaken : ∃ r ∈ s.roles, r.name = name) :
    Effect now s (.createRole name description) (.error (.conflict .role name), s)
  | roleAdded {name : String} {description : Option String} (hnew : ∀ r ∈ s.roles, r.name ≠ name) :
    Effect now s (.createRole name description)
      (.ok (.role ((s.insertRole now name description false).2.load (s.insertRole now name description false).1)),
        (s.insertRole now name description false).2)
  | updatedRoleAbsent {id : Id} {update : RoleUpdate} (habsent : ∀ r ∈ s.roles, r.id ≠ id) :
    Effect now s (.updateRole id update) (.ok .absent, s)
  | updatedRoleBuiltin {id : Id} {row : RoleRow} {update : RoleUpdate} (hrow : row ∈ s.roles) (hid : row.id = id)
    (hbuiltin : row.builtin = true) : Effect now s (.updateRole id update) (.error (.builtinRole row.name), s)
  | newRoleNameTaken {id : Id} {row : RoleRow} {update : RoleUpdate} (hrow : row ∈ s.roles) (hid : row.id = id)
    (hcustom : row.builtin = false) (htaken : ∃ r ∈ s.roles, r.id ≠ id ∧ r.name = (update.apply row).name) :
    Effect now s (.updateRole id update) (.error (.conflict .role (update.apply row).name), s)
  | roleChanged {id : Id} {row : RoleRow} {update : RoleUpdate} {t : Store} (hrow : row ∈ s.roles)
    (hid : row.id = id) (hcustom : row.builtin = false)
    (hnew : ∀ r ∈ s.roles, r.id ≠ id → r.name ≠ (update.apply row).name)
    (ht : t = { s with
      roles := s.roles.map fun r => if r.id = id then { update.apply row with updated := now } else r }) :
    Effect now s (.updateRole id update) (.ok (.role (t.load { update.apply row with updated := now })), t)
  | deletedRoleAbsent {id : Id} (habsent : ∀ r ∈ s.roles, r.id ≠ id) :
    Effect now s (.deleteRole id) (.ok (.flag false), s)
  | deletedRoleBuiltin {id : Id} {row : RoleRow} (hrow : row ∈ s.roles) (hid : row.id = id)
    (hbuiltin : row.builtin = true) : Effect now s (.deleteRole id) (.error (.builtinRole row.name), s)
  | roleDeleted {id : Id} {row : RoleRow} (hrow : row ∈ s.roles) (hid : row.id = id) (hcustom : row.builtin = false) :
    Effect now s (.deleteRole id) (.ok (.flag true),
      { s with
        roles := s.roles.filter (·.id != id)
        memberships := s.memberships.filter (·.role != id)
        aces := s.aces.filter (·.role != id) })
  -- memberships
  | addingRoleAbsent {role privilege : Id} (habsent : ∀ r ∈ s.roles, r.id ≠ role) :
    Effect now s (.addPrivilege role privilege) (.error (.notFound .role role), s)
  | addedPrivilegeAbsent {role privilege : Id} (hrole : role ∈ s.roles.map (·.id))
    (habsent : ∀ p ∈ s.privileges, p.id ≠ privilege) :
    Effect now s (.addPrivilege role privilege) (.error (.notFound .privilege privilege), s)
  | alreadyAttached {role privilege : Id} {row : RoleRow} (hrow : row ∈ s.roles) (hid : row.id = role)
    (hprivilege : privilege ∈ s.privileges.map (·.id)) (hmember : Membership.mk role privilege ∈ s.memberships) :
    Effect now s (.addPrivilege role privilege) (.ok (.role (s.load row)), s)
  | attached {role privilege : Id} {row : RoleRow} {t : Store} (hrow : row ∈ s.roles) (hid : row.id = role)
    (hprivilege : privilege ∈ s.privileges.map (·.id)) (hnew : Membership.mk role privilege ∉ s.memberships)
    (ht : t = (s.attach role privilege).touchRole now role) :
    Effect now s (.addPrivilege role privilege) (.ok (.role (t.load { row with updated := now })), t)
  | removingRoleAbsent {role privilege : Id} (habsent : ∀ r ∈ s.roles, r.id ≠ role) :
    Effect now s (.removePrivilege role privilege) (.error (.notFound .role role), s)
  | notAttached {role privilege : Id} (hrole : role ∈ s.roles.map (·.id))
    (hnone : Membership.mk role privilege ∉ s.memberships) :
    Effect now s (.removePrivilege role privilege) (.error (.notMember privilege role), s)
  | detached {role privilege : Id} {row : RoleRow} {t : Store} (hrow : row ∈ s.roles) (hid : row.id = role)
    (hmember : Membership.mk role privilege ∈ s.memberships)
    (ht : t = { s with
      memberships := s.memberships.filter (· != Membership.mk role privilege) }.touchRole now role) :
    Effect now s (.removePrivilege role privilege) (.ok (.role (t.load { row with updated := now })), t)
  -- privileges
  | privilegeNameTaken {name : String} {description : Option String} (htaken : ∃ p ∈ s.privileges, p.name = name) :
    Effect now s (.createPrivilege name description) (.error (.conflict .privilege name), s)
  | privilegeAdded {name : String} {description : Option String} (hnew : ∀ p ∈ s.privileges, p.name ≠ name) :
    Effect now s (.createPrivilege name description)
      (.ok (.privilege (s.insertPrivilege now name description).1), (s.insertPrivilege now name description).2)
  | updatedPrivilegeAbsent {id : Id} {update : PrivilegeUpdate} (habsent : ∀ p ∈ s.privileges, p.id ≠ id) :
    Effect now s (.updatePrivilege id update) (.ok .absent, s)
  | newPrivilegeNameTaken {id : Id} {row : Privilege} {update : PrivilegeUpdate} (hrow : row ∈ s.privileges)
    (hid : row.id = id) (htaken : ∃ p ∈ s.privileges, p.id ≠ id ∧ p.name = (update.apply row).name) :
    Effect now s (.updatePrivilege id update) (.error (.conflict .privilege (update.apply row).name), s)
  | privilegeChanged {id : Id} {row : Privilege} {update : PrivilegeUpdate} (hrow : row ∈ s.privileges)
    (hid : row.id = id) (hnew : ∀ p ∈ s.privileges, p.id ≠ id → p.name ≠ (update.apply row).name) :
    Effect now s (.updatePrivilege id update) (.ok (.privilege { update.apply row with updated := now }),
      { s with
        privileges := s.privileges.map fun p => if p.id = id then { update.apply row with updated := now } else p })
  | privilegeAbsent {id : Id} (habsent : ∀ p ∈ s.privileges, p.id ≠ id) :
    Effect now s (.deletePrivilege id) (.ok (.flag false), (s.deletePrivilege id).2)
  | privilegeDeleted {id : Id} (hrow : ∃ p ∈ s.privileges, p.id = id) :
    Effect now s (.deletePrivilege id) (.ok (.flag true), (s.deletePrivilege id).2)
  -- entries
  | aceRoleAbsent {new : NewAce} (habsent : new.role ∉ s.roles.map (·.id)) :
    Effect now s (.createAce new) (.error (.notFound .role new.role), s)
  | aceSubjectWrong {new : NewAce} (hrole : new.role ∈ s.roles.map (·.id)) (hwrong : new.subject? = none) :
    Effect now s (.createAce new) (.error (.invalid (.subject new.kind)), s)
  | aceUserAbsent {new : NewAce} {user : Id} (hrole : new.role ∈ s.roles.map (·.id))
    (hgiven : new.subject? = some (.user user)) (habsent : .user user ∉ s.subjects) :
    Effect now s (.createAce new) (.error (.notFound .user user), s)
  | aceGroupAbsent {new : NewAce} {group : Id} (hrole : new.role ∈ s.roles.map (·.id))
    (hgiven : new.subject? = some (.group group)) (habsent : .group group ∉ s.subjects) :
    Effect now s (.createAce new) (.error (.notFound .group group), s)
  | aceTaken {new : NewAce} {subject : Subject} (hrole : new.role ∈ s.roles.map (·.id))
    (hgiven : new.subject? = some subject) (hsubject : subject ∈ s.subjects)
    (htaken : ∃ a ∈ s.aces, a.key = (new.path, subject, new.role)) :
    Effect now s (.createAce new) (.error (.conflict .ace new.path.text), s)
  | aceAdded {new : NewAce} {subject : Subject} {ace : Ace} (hrole : new.role ∈ s.roles.map (·.id))
    (hgiven : new.subject? = some subject) (hsubject : subject ∈ s.subjects)
    (hnew : ∀ a ∈ s.aces, a.key ≠ (new.path, subject, new.role))
    (hace : ace = ⟨.issue .ace (s.issued.aces + 1), new.path, subject, new.role, new.allowed.getD true,
      new.propagates.getD true, now, now⟩) :
    Effect now s (.createAce new) (.ok (.ace ace),
      { s with aces := s.aces ++ [ace], issued := { s.issued with aces := s.issued.aces + 1 } })
  | updatedAceAbsent {id : Id} {update : AceUpdate} (habsent : ∀ a ∈ s.aces, a.id ≠ id) :
    Effect now s (.updateAce id update) (.ok .absent, s)
  | newAceRoleAbsent {id : Id} {row : Ace} {update : AceUpdate} {role : Id} (hrow : row ∈ s.aces) (hid : row.id = id)
    (hgiven : update.role = some role) (habsent : role ∉ s.roles.map (·.id)) :
    Effect now s (.updateAce id update) (.error (.notFound .role role), s)
  | changedAceTaken {id : Id} {row : Ace} {update : AceUpdate} (hrow : row ∈ s.aces) (hid : row.id = id)
    (hrole : ∀ role, update.role = some role → role ∈ s.roles.map (·.id))
    (htaken : ∃ a ∈ s.aces, a.id ≠ id ∧ a.key = (update.apply row).key) :
    Effect now s (.updateAce id update) (.error (.conflict .ace (update.apply row).path.text), s)
  | aceChanged {id : Id} {row : Ace} {update : AceUpdate} (hrow : row ∈ s.aces) (hid : row.id = id)
    (hrole : ∀ role, update.role = some role → role ∈ s.roles.map (·.id))
    (hnew : ∀ a ∈ s.aces, a.id ≠ id → a.key ≠ (update.apply row).key) :
    Effect now s (.updateAce id update) (.ok (.ace { update.apply row with updated := now }),
      { s with aces := s.aces.map fun a => if a.id = id then { update.apply row with updated := now } else a })
  | aceAbsent {id : Id} (habsent : ∀ a ∈ s.aces, a.id ≠ id) :
    Effect now s (.deleteAce id) (.ok (.flag false), (s.deleteAce id).2)
  | aceDeleted {id : Id} (hrow : ∃ a ∈ s.aces, a.id = id) :
    Effect now s (.deleteAce id) (.ok (.flag true), (s.deleteAce id).2)
  | purged {top : Path} : Effect now s (.purge top) (.ok (.count (s.purge top).1), (s.purge top).2)
  | resourcePurged {top : Path} : Effect now s (.resourceDeleted top) (.ok (.count (s.purge top).1), (s.purge top).2)
  | seeded : Effect now s .seed (.ok .done, s.seed now)

end Operation

/-! ## Looking rows up -/

namespace Store

variable {now : Stamp} {s : Store}

theorem roleRow_eq_some {id : Id} {row : RoleRow} (h : s.roleRow? id = some row) : row ∈ s.roles ∧ row.id = id :=
  find_key_eq_some h

theorem privilege_eq_some {id : Id} {p : Privilege} (h : s.privilege? id = some p) : p ∈ s.privileges ∧ p.id = id :=
  find_key_eq_some h

theorem ace_eq_some {id : Id} {a : Ace} (h : s.ace? id = some a) : a ∈ s.aces ∧ a.id = id := find_key_eq_some h

theorem find_id_eq_none {α : Type} {id : α → Id} {rows : List α} {target : Id}
    (h : rows.find? (id · == target) = none) : ∀ row ∈ rows, id row ≠ target := by
  simpa using h

theorem requireRole_eq (s : Store) (role : Id) :
    s.requireRole role = if role ∈ s.roles.map (·.id) then .ok () else .error (.notFound .role role) := by
  simp only [requireRole, List.any_eq_true, List.mem_map, beq_iff_eq]

theorem requireSubject_of_mem {subject : Subject} (h : subject ∈ s.subjects) : s.requireSubject subject = .ok () := by
  cases subject with
  | user id =>
    have hrow : s.users.any (·.id == id) = true := by simpa [subjects] using h
    rw [requireSubject, if_pos hrow]
  | group id =>
    have hrow : s.groups.any (·.id == id) = true := by simpa [subjects] using h
    rw [requireSubject, if_pos hrow]

theorem requireSubject_user {id : Id} (h : .user id ∉ s.subjects) :
    s.requireSubject (.user id) = .error (.notFound .user id) := by
  have hrow : ¬ s.users.any (·.id == id) = true := by simpa [subjects] using h
  rw [requireSubject, if_neg hrow]

theorem requireSubject_group {id : Id} (h : .group id ∉ s.subjects) :
    s.requireSubject (.group id) = .error (.notFound .group id) := by
  have hrow : ¬ s.groups.any (·.id == id) = true := by simpa [subjects] using h
  rw [requireSubject, if_neg hrow]

/-- A new entry whose role has a row is accepted as far as its subject is, and as no other entry stands in its place. -/
theorem accept_eq {new : NewAce} (hrole : new.role ∈ s.roles.map (·.id)) : s.accept new =
    match new.subject? with
    | none => .error (.invalid (.subject new.kind))
    | some subject =>
      match s.requireSubject subject with
      | .error e => .error e
      | .ok () =>
        if ∃ a ∈ s.aces, a.key = (new.path, subject, new.role) then .error (.conflict .ace new.path.text)
        else .ok subject := by
  simp only [accept, requireRole_eq, if_pos hrole, bind, Except.bind]
  cases new.subject? with
  | none => rfl
  | some subject =>
    dsimp only
    cases s.requireSubject subject with
    | error e => rfl
    | ok =>
      simp only [Ace.key, Prod.mk.injEq, List.any_eq_true, Bool.and_eq_true, beq_iff_eq, and_assoc]
      split <;> rfl

/-- A changed entry is accepted if its new role has a row and no other entry stands in its place. -/
theorem acceptChange_eq {update : AceUpdate} {changed : Ace}
    (hrole : ∀ role, update.role = some role → role ∈ s.roles.map (·.id)) : s.acceptChange update changed =
      if ∃ a ∈ s.aces, a.id ≠ changed.id ∧ a.key = changed.key then .error (.conflict .ace changed.path.text)
      else .ok () := by
  have hrival : s.hasRival changed.id changed.path changed.subject changed.role = true ↔
      ∃ a ∈ s.aces, a.id ≠ changed.id ∧ a.key = changed.key := by
    simp [hasRival, Ace.key, and_assoc]
  cases hgiven : update.role with
  | none =>
    simp only [acceptChange, hgiven, hrival]
    rfl
  | some role =>
    simp only [acceptChange, hgiven, requireRole_eq, if_pos (hrole role hgiven), hrival]
    rfl

theorem acceptChange_of_role_absent {update : AceUpdate} {changed : Ace} {role : Id}
    (hgiven : update.role = some role) (habsent : role ∉ s.roles.map (·.id)) :
    s.acceptChange update changed = .error (.notFound .role role) := by
  simp only [acceptChange, hgiven, requireRole_eq, if_neg habsent, bind, Except.bind]

end Store

/-! ## The programs -/

namespace Operation

theorem createUser_effect (now : Stamp) (name : String) (s : Store) :
    Effect now s (.createUser name) ((createUser name).perform now s) := by
  show Effect now s (.createUser name) (.ofOutcome .user s (s.createUser now name))
  rw [Store.createUser]
  by_cases hname : s.users.any (·.name == name) = true
  · rw [if_pos hname]
    exact .usernameTaken (by simpa using hname)
  · rw [if_neg hname]
    exact .userAdded (by simpa using hname)

theorem deleteUser_effect (now : Stamp) (id : Id) (s : Store) :
    Effect now s (.deleteUser id) ((deleteUser id).perform now s) := by
  show Effect now s (.deleteUser id) (.ok (.flag (s.users.any (·.id == id))), (s.deleteUser id).2)
  cases hrow : s.users.any (·.id == id) with
  | true => exact .userDeleted (by simpa using hrow)
  | false => exact .userAbsent (by simpa using hrow)

theorem createGroup_effect (now : Stamp) (name : String) (s : Store) :
    Effect now s (.createGroup name) ((createGroup name).perform now s) := by
  show Effect now s (.createGroup name) (.ofOutcome .group s (s.createGroup now name))
  rw [Store.createGroup]
  by_cases hname : s.groups.any (·.name == name) = true
  · rw [if_pos hname]
    exact .groupNameTaken (by simpa using hname)
  · rw [if_neg hname]
    exact .groupAdded (by simpa using hname)

theorem deleteGroup_effect (now : Stamp) (id : Id) (s : Store) :
    Effect now s (.deleteGroup id) ((deleteGroup id).perform now s) := by
  show Effect now s (.deleteGroup id) (.ok (.flag (s.groups.any (·.id == id))), (s.deleteGroup id).2)
  cases hrow : s.groups.any (·.id == id) with
  | true => exact .groupDeleted (by simpa using hrow)
  | false => exact .groupAbsent (by simpa using hrow)

theorem createRole_effect (now : Stamp) (name : String) (description : Option String) (s : Store) :
    Effect now s (.createRole name description) ((createRole name description).perform now s) := by
  show Effect now s (.createRole name description) (.ofOutcome .role s (s.createRole now name description))
  rw [Store.createRole]
  by_cases hname : s.roles.any (·.name == name) = true
  · rw [if_pos hname]
    exact .roleNameTaken (by simpa using hname)
  · rw [if_neg hname]
    exact .roleAdded (by simpa using hname)

theorem updateRole_effect (now : Stamp) (id : Id) (update : RoleUpdate) (s : Store) :
    Effect now s (.updateRole id update) ((updateRole id update).perform now s) := by
  show Effect now s (.updateRole id update) (.ofOutcome (.ofOption .role) s (s.updateRole now id update))
  rw [Store.updateRole]
  cases hlook : s.roleRow? id with
  | none => exact .updatedRoleAbsent (Store.find_id_eq_none hlook)
  | some row =>
    obtain ⟨hrow, rfl⟩ := Store.roleRow_eq_some hlook
    dsimp only
    by_cases hbuiltin : row.builtin = true
    · rw [if_pos hbuiltin]
      exact .updatedRoleBuiltin hrow rfl hbuiltin
    · rw [if_neg hbuiltin]
      have hcustom : row.builtin = false := by simpa using hbuiltin
      by_cases hname : (s.roles.any fun r => r.id != row.id && r.name == update.name.getD row.name) = true
      · rw [if_pos hname]
        exact .newRoleNameTaken hrow rfl hcustom (by simpa [RoleUpdate.apply] using hname)
      · rw [if_neg hname]
        exact .roleChanged hrow rfl hcustom (by simpa [RoleUpdate.apply] using hname) rfl

theorem deleteRole_effect (now : Stamp) (id : Id) (s : Store) :
    Effect now s (.deleteRole id) ((deleteRole id).perform now s) := by
  show Effect now s (.deleteRole id) (.ofOutcome .flag s (s.deleteRole id))
  rw [Store.deleteRole]
  cases hlook : s.roleRow? id with
  | none => exact .deletedRoleAbsent (Store.find_id_eq_none hlook)
  | some row =>
    obtain ⟨hrow, rfl⟩ := Store.roleRow_eq_some hlook
    dsimp only
    by_cases hbuiltin : row.builtin = true
    · rw [if_pos hbuiltin]
      exact .deletedRoleBuiltin hrow rfl hbuiltin
    · rw [if_neg hbuiltin]
      exact .roleDeleted hrow rfl (by simpa using hbuiltin)

theorem addPrivilege_effect (now : Stamp) (role privilege : Id) (s : Store) :
    Effect now s (.addPrivilege role privilege) ((addPrivilege role privilege).perform now s) := by
  show Effect now s (.addPrivilege role privilege) (.ofOutcome .role s (s.addPrivilege now role privilege))
  rw [Store.addPrivilege]
  cases hlook : s.roleRow? role with
  | none => exact .addingRoleAbsent (Store.find_id_eq_none hlook)
  | some row =>
    obtain ⟨hrow, rfl⟩ := Store.roleRow_eq_some hlook
    dsimp only
    cases hfound : s.privilege? privilege with
    | none => exact .addedPrivilegeAbsent (List.mem_map_of_mem hrow) (Store.find_id_eq_none hfound)
    | some p =>
      have hprivilege : privilege ∈ s.privileges.map (·.id) := List.mem_map.mpr ⟨p, Store.privilege_eq_some hfound⟩
      dsimp only
      by_cases hmember : s.memberships.contains ⟨row.id, privilege⟩ = true
      · rw [if_pos hmember]
        exact .alreadyAttached hrow rfl hprivilege (List.contains_iff_mem.mp hmember)
      · rw [if_neg hmember]
        exact .attached hrow rfl hprivilege (by simpa using hmember) rfl

theorem removePrivilege_effect (now : Stamp) (role privilege : Id) (s : Store) :
    Effect now s (.removePrivilege role privilege) ((removePrivilege role privilege).perform now s) := by
  show Effect now s (.removePrivilege role privilege) (.ofOutcome .role s (s.removePrivilege now role privilege))
  rw [Store.removePrivilege]
  cases hlook : s.roleRow? role with
  | none => exact .removingRoleAbsent (Store.find_id_eq_none hlook)
  | some row =>
    obtain ⟨hrow, rfl⟩ := Store.roleRow_eq_some hlook
    dsimp only
    by_cases hmember : s.memberships.contains ⟨row.id, privilege⟩ = true
    · rw [if_pos hmember]
      exact .detached hrow rfl (List.contains_iff_mem.mp hmember) rfl
    · rw [if_neg hmember]
      exact .notAttached (List.mem_map_of_mem hrow) (by simpa using hmember)

theorem createPrivilege_effect (now : Stamp) (name : String) (description : Option String) (s : Store) :
    Effect now s (.createPrivilege name description) ((createPrivilege name description).perform now s) := by
  show Effect now s (.createPrivilege name description)
    (.ofOutcome .privilege s (s.createPrivilege now name description))
  rw [Store.createPrivilege]
  by_cases hname : s.privileges.any (·.name == name) = true
  · rw [if_pos hname]
    exact .privilegeNameTaken (by simpa using hname)
  · rw [if_neg hname]
    exact .privilegeAdded (by simpa using hname)

theorem updatePrivilege_effect (now : Stamp) (id : Id) (update : PrivilegeUpdate) (s : Store) :
    Effect now s (.updatePrivilege id update) ((updatePrivilege id update).perform now s) := by
  show Effect now s (.updatePrivilege id update)
    (.ofOutcome (.ofOption .privilege) s (s.updatePrivilege now id update))
  rw [Store.updatePrivilege]
  cases hlook : s.privilege? id with
  | none => exact .updatedPrivilegeAbsent (Store.find_id_eq_none hlook)
  | some row =>
    obtain ⟨hrow, rfl⟩ := Store.privilege_eq_some hlook
    dsimp only
    by_cases hname : (s.privileges.any fun p => p.id != row.id && p.name == update.name.getD row.name) = true
    · rw [if_pos hname]
      exact .newPrivilegeNameTaken hrow rfl (by simpa [PrivilegeUpdate.apply] using hname)
    · rw [if_neg hname]
      exact .privilegeChanged hrow rfl (by simpa [PrivilegeUpdate.apply] using hname)

theorem deletePrivilege_effect (now : Stamp) (id : Id) (s : Store) :
    Effect now s (.deletePrivilege id) ((deletePrivilege id).perform now s) := by
  show Effect now s (.deletePrivilege id) (.ok (.flag (s.privileges.any (·.id == id))), (s.deletePrivilege id).2)
  cases hrow : s.privileges.any (·.id == id) with
  | true => exact .privilegeDeleted (by simpa using hrow)
  | false => exact .privilegeAbsent (by simpa using hrow)

theorem createAce_effect (now : Stamp) (new : NewAce) (s : Store) :
    Effect now s (.createAce new) ((createAce new).perform now s) := by
  show Effect now s (.createAce new) (.ofOutcome .ace s (s.createAce now new))
  rw [Store.createAce]
  by_cases hrole : new.role ∈ s.roles.map (·.id)
  · rw [Store.accept_eq hrole]
    cases hgiven : new.subject? with
    | none => exact .aceSubjectWrong hrole hgiven
    | some subject =>
      by_cases hsubject : subject ∈ s.subjects
      · by_cases htaken : ∃ a ∈ s.aces, a.key = (new.path, subject, new.role)
        · simp only [Store.requireSubject_of_mem hsubject, if_pos htaken]
          exact .aceTaken hrole hgiven hsubject htaken
        · simp only [Store.requireSubject_of_mem hsubject, if_neg htaken]
          exact .aceAdded hrole hgiven hsubject (by simpa using htaken) rfl
      · cases subject with
        | user id =>
          simp only [Store.requireSubject_user hsubject]
          exact .aceUserAbsent hrole hgiven hsubject
        | group id =>
          simp only [Store.requireSubject_group hsubject]
          exact .aceGroupAbsent hrole hgiven hsubject
  · have hrefused : s.accept new = .error (.notFound .role new.role) := by
      simp only [Store.accept, Store.requireRole_eq, if_neg hrole, bind, Except.bind]
    rw [hrefused]
    exact .aceRoleAbsent hrole

theorem updateAce_effect (now : Stamp) (id : Id) (update : AceUpdate) (s : Store) :
    Effect now s (.updateAce id update) ((updateAce id update).perform now s) := by
  show Effect now s (.updateAce id update) (.ofOutcome (.ofOption .ace) s (s.updateAce now id update))
  rw [Store.updateAce]
  cases hlook : s.ace? id with
  | none => exact .updatedAceAbsent (Store.find_id_eq_none hlook)
  | some row =>
    obtain ⟨hrow, rfl⟩ := Store.ace_eq_some hlook
    dsimp only
    by_cases hrole : ∀ role, update.role = some role → role ∈ s.roles.map (·.id)
    · rw [Store.acceptChange_eq hrole]
      by_cases htaken : ∃ a ∈ s.aces, a.id ≠ row.id ∧ a.key = (update.apply row).key
      · have hrival : ∃ a ∈ s.aces, a.id ≠ (update.apply row).id ∧
            a.key = { update.apply row with updated := now }.key := htaken
        rw [if_pos hrival]
        exact .changedAceTaken hrow rfl hrole htaken
      · have hnone : ¬ ∃ a ∈ s.aces, a.id ≠ (update.apply row).id ∧
            a.key = { update.apply row with updated := now }.key := htaken
        rw [if_neg hnone]
        exact .aceChanged hrow rfl hrole (by simpa using htaken)
    · obtain ⟨role, hgiven, habsent⟩ : ∃ role, update.role = some role ∧ role ∉ s.roles.map (·.id) := by
        simpa only [not_forall, exists_prop] using hrole
      rw [Store.acceptChange_of_role_absent hgiven habsent]
      exact .newAceRoleAbsent hrow rfl hgiven habsent

theorem deleteAce_effect (now : Stamp) (id : Id) (s : Store) :
    Effect now s (.deleteAce id) ((deleteAce id).perform now s) := by
  show Effect now s (.deleteAce id) (.ok (.flag (s.aces.any (·.id == id))), (s.deleteAce id).2)
  cases hrow : s.aces.any (·.id == id) with
  | true => exact .aceDeleted (by simpa using hrow)
  | false => exact .aceAbsent (by simpa using hrow)

/-- **Every operation has one of the effects.** -/
theorem perform_effect (now : Stamp) (op : Operation) (s : Store) : Effect now s op (op.perform now s) := by
  cases op with
  | createUser name => exact createUser_effect now name s
  | deleteUser id => exact deleteUser_effect now id s
  | createGroup name => exact createGroup_effect now name s
  | deleteGroup id => exact deleteGroup_effect now id s
  | createRole name description => exact createRole_effect now name description s
  | updateRole id update => exact updateRole_effect now id update s
  | deleteRole id => exact deleteRole_effect now id s
  | createPrivilege name description => exact createPrivilege_effect now name description s
  | updatePrivilege id update => exact updatePrivilege_effect now id update s
  | deletePrivilege id => exact deletePrivilege_effect now id s
  | addPrivilege role privilege => exact addPrivilege_effect now role privilege s
  | removePrivilege role privilege => exact removePrivilege_effect now role privilege s
  | createAce new => exact createAce_effect now new s
  | updateAce id update => exact updateAce_effect now id update s
  | deleteAce id => exact deleteAce_effect now id s
  | purge top => exact .purged
  | resourceDeleted path => exact .resourcePurged
  | seed =>
    show Effect now s .seed (.ok .done, s.seed now)
    exact .seeded
  | _ => exact .read rfl

theorem run_eq_perform {now : Stamp} {op : Operation} (hfault : op.fault? = none) (s : Store) :
    op.run now s = op.perform now s := by
  rw [run, hfault]

theorem run_seed (now : Stamp) (s : Store) : seed.run now s = (.ok .done, s.seed now) := by
  rw [run_eq_perform rfl]
  simp only [perform]

namespace Effect

variable {now : Stamp} {s t : Store} {op : Operation}

theorem error_keeps {error : AccessError} (h : Effect now s op (.error error, t)) : t = s := by
  cases h <;> rfl

theorem read_keeps (hread : op.isRead = true) {reply : Reply} (h : Effect now s op reply) : reply.2 = s := by
  cases h with
  | read => rfl
  | _ => exact absurd hread Bool.false_ne_true

end Effect

end Operation

/-! ## Through the connection -/

namespace Engine

variable {now : Stamp} {e : Engine} {op : Operation}

/-- An engine refuses a faulty input, then refuses what has to wait for its connection, and else does the work. -/
theorem run_cases (now : Stamp) (op : Operation) (e : Engine) :
    (∃ fault, op.fault? = some fault ∧ e.run now op = (.error (.invalid fault), e)) ∨
    (op.fault? = none ∧ ∃ error, e.refusal? op = some error ∧ e.run now op = (.error error, e)) ∨
    (op.fault? = none ∧ e.refusal? op = none ∧ ∃ answer t, op.Effect now e.store (answer, t) ∧
      e.run now op = (answer, { e with store := t })) := by
  cases hfault : op.fault? with
  | some fault => exact Or.inl ⟨fault, rfl, by rw [run_eq, hfault]⟩
  | none =>
    refine Or.inr ?_
    cases hrefusal : e.refusal? op with
    | some error => exact Or.inl ⟨rfl, error, rfl, by rw [run_eq, hfault, hrefusal]⟩
    | none =>
      have hwork : e.run now op = ((op.perform now e.store).1, { e with store := (op.perform now e.store).2 }) := by
        rw [run_eq, hfault, hrefusal]
      exact Or.inr ⟨rfl, rfl, _, _, op.perform_effect now e.store, hwork⟩

/-- In short: an error with nothing done, or an effect. -/
theorem run_effect (now : Stamp) (op : Operation) (e : Engine) :
    (∃ error, e.run now op = (.error error, e)) ∨
    ∃ answer t, op.Effect now e.store (answer, t) ∧ e.run now op = (answer, { e with store := t }) := by
  rcases e.run_cases now op with ⟨fault, -, hrun⟩ | ⟨-, error, -, hrun⟩ | ⟨-, -, hwork⟩
  · exact Or.inl ⟨_, hrun⟩
  · exact Or.inl ⟨_, hrun⟩
  · exact Or.inr hwork

theorem run_connection (now : Stamp) (op : Operation) (e : Engine) :
    (e.run now op).2.connection = e.connection := by
  rcases e.run_effect now op with ⟨error, hrun⟩ | ⟨answer, t, -, hrun⟩
  · rw [hrun]
  · rw [hrun]

theorem run_error_keeps {error : AccessError} (h : (e.run now op).1 = .error error) : (e.run now op).2 = e := by
  rcases e.run_effect now op with ⟨_, hrun⟩ | ⟨answer, t, heffect, hrun⟩
  · rw [hrun]
  · rw [hrun] at h ⊢
    obtain rfl : answer = .error error := h
    rw [heffect.error_keeps]

theorem run_read_keeps (hread : op.isRead = true) : (e.run now op).2 = e := by
  rcases e.run_effect now op with ⟨_, hrun⟩ | ⟨answer, t, heffect, hrun⟩
  · rw [hrun]
  · obtain rfl : t = e.store := heffect.read_keeps hread
    rw [hrun]

theorem refusal_eq_none_iff : e.refusal? op = none ↔ e.connection = .free := by
  unfold refusal?
  cases e.connection with
  | free => simp
  | held =>
    cases e.patience op with
    | none => simp
    | some limit =>
      dsimp only
      split <;> simp
  | closed => simp

theorem run_eq_of_free (hfree : e.connection = .free) (now : Stamp) (op : Operation) :
    e.run now op = ((op.run now e.store).1, { e with store := (op.run now e.store).2 }) := by
  rcases e.run_cases now op with ⟨fault, hfault, hrun⟩ | ⟨-, error, hrefusal, -⟩ | ⟨hfault, hrefusal, -⟩
  · rw [hrun, Operation.run_of_fault hfault]
  · rw [refusal_eq_none_iff.mpr hfree] at hrefusal
    exact absurd hrefusal (by simp)
  · rw [run_eq, hfault, hrefusal, Operation.run_eq_perform hfault]

theorem run_free (hfree : e.connection = .free) :
    (e.run now op).1 = (op.run now e.store).1 ∧ (e.run now op).2.store = (op.run now e.store).2 := by
  rw [run_eq_of_free hfree]
  exact ⟨rfl, rfl⟩

theorem free_of_answer {answer : Answer} (h : (e.run now op).1 = .ok answer) :
    op.fault? = none ∧ e.connection = .free := by
  rcases e.run_cases now op with ⟨fault, -, hrun⟩ | ⟨-, error, -, hrun⟩ | ⟨hfault, hrefusal, -⟩
  · rw [hrun] at h
    exact absurd h (by simp)
  · rw [hrun] at h
    exact absurd h (by simp)
  · exact ⟨hfault, refusal_eq_none_iff.mp hrefusal⟩

/-- On a free connection an operation that can only have one effect has that effect. -/
theorem run_of_effect (hfree : e.connection = .free) (hfault : op.fault? = none) {answer : Except AccessError Answer}
    {t : Store} (h : ∀ reply, op.Effect now e.store reply → reply = (answer, t)) :
    e.run now op = (answer, { e with store := t }) := by
  rcases e.run_cases now op with ⟨fault, hfault', -⟩ | ⟨-, error, hrefusal, -⟩ | ⟨-, -, reply, t, heffect, hrun⟩
  · rw [hfault] at hfault'
    exact absurd hfault' (by simp)
  · rw [refusal_eq_none_iff.mpr hfree] at hrefusal
    exact absurd hrefusal (by simp)
  · obtain ⟨rfl, rfl⟩ := Prod.mk.inj (h _ heffect)
    exact hrun

theorem refusal_eq_some {error : AccessError} (h : e.refusal? op = some error) :
    (∃ limit, error = .timeout limit) ∨ ∃ fault, error = .storage fault := by
  unfold refusal? at h
  split at h
  · exact absurd h (by simp)
  · exact Or.inr ⟨_, (Option.some.inj h).symm⟩
  · split at h
    · split at h
      · exact Or.inl ⟨_, (Option.some.inj h).symm⟩
      · exact Or.inr ⟨_, (Option.some.inj h).symm⟩
    · exact Or.inr ⟨_, (Option.some.inj h).symm⟩

end Engine

end ResourceAccess
