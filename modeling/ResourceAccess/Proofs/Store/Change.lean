import Mathlib.Logic.Relation
import ResourceAccess.Proofs.Store.Effect

/-!
# What an operation can do to the tables

`Change` lists the elementary changes of a store, each with what has to hold for it.  Every operation is a sequence of
such changes: none for a read or a refusal, one or two for a write, many for seeding.  A property that elementary
changes keep therefore holds in every reachable store, and the operations need not be looked at again.

* `Change`: the elementary changes
* `Operation.run_changes`: **an operation makes elementary changes only**
* `Reachable.of_changes`: what changes keep, reachable stores have
-/

namespace ResourceAccess

open Relation (ReflTransGen)

/-- One elementary change of the tables at a time. -/
inductive Change (now : Stamp) (s : Store) : Store → Prop
  | addUser (name : String) (hname : Text.isBlank name = false) (hnew : ∀ u ∈ s.users, u.name ≠ name) :
      Change now s { s with
        users := s.users ++ [⟨.issue .user (s.issued.users + 1), name, now⟩]
        issued := { s.issued with users := s.issued.users + 1 } }
  | removeUser (id : Id) : Change now s (s.deleteUser id).2
  | addGroup (name : String) (hname : Text.isBlank name = false) (hnew : ∀ g ∈ s.groups, g.name ≠ name) :
      Change now s { s with
        groups := s.groups ++ [⟨.issue .group (s.issued.groups + 1), name, now⟩]
        issued := { s.issued with groups := s.issued.groups + 1 } }
  | removeGroup (id : Id) : Change now s (s.deleteGroup id).2
  | addRole (name : String) (description : Option String) (builtin : Bool)
      (hname : Text.isBlank name = false) (hnew : ∀ r ∈ s.roles, r.name ≠ name) :
      Change now s (s.insertRole now name description builtin).2
  | changeRole (row : RoleRow) (name : String) (description : Option String) (hrow : row ∈ s.roles)
      (hcustom : row.builtin = false) (hname : name = row.name ∨ Text.isBlank name = false)
      (hnew : ∀ r ∈ s.roles, r.id ≠ row.id → r.name ≠ name) :
      Change now s { s with
        roles := s.roles.map fun r => if r.id = row.id then { row with name, description, updated := now } else r }
  | touchRole (id : Id) : Change now s (s.touchRole now id)
  | removeRole (row : RoleRow) (hrow : row ∈ s.roles) (hcustom : row.builtin = false) :
      Change now s { s with
        roles := s.roles.filter (·.id != row.id)
        memberships := s.memberships.filter (·.role != row.id)
        aces := s.aces.filter (·.role != row.id) }
  | addPrivilege (name : String) (description : Option String) (hname : PrivilegeName.isValid name = true)
      (hnew : ∀ p ∈ s.privileges, p.name ≠ name) : Change now s (s.insertPrivilege now name description).2
  | changePrivilege (row : Privilege) (name : String) (description : Option String) (hrow : row ∈ s.privileges)
      (hname : name = row.name ∨ PrivilegeName.isValid name = true)
      (hnew : ∀ p ∈ s.privileges, p.id ≠ row.id → p.name ≠ name) :
      Change now s { s with
        privileges := s.privileges.map fun p =>
          if p.id = row.id then { row with name, description, updated := now } else p }
  | removePrivilege (id : Id) : Change now s (s.deletePrivilege id).2
  | attach (role privilege : Id) (hrole : role ∈ s.roles.map (·.id))
      (hprivilege : privilege ∈ s.privileges.map (·.id)) : Change now s (s.attach role privilege)
  | detach (role privilege : Id) :
      Change now s { s with memberships := s.memberships.filter (· != Membership.mk role privilege) }
  | addAce (path : Path) (subject : Subject) (role : Id) (allowed propagates : Bool) (hpath : path.fault? = none)
      (hrole : role ∈ s.roles.map (·.id)) (hsubject : subject ∈ s.subjects)
      (hnew : ∀ a ∈ s.aces, a.key ≠ (path, subject, role)) :
      Change now s { s with
        aces := s.aces ++ [⟨.issue .ace (s.issued.aces + 1), path, subject, role, allowed, propagates, now, now⟩]
        issued := { s.issued with aces := s.issued.aces + 1 } }
  | changeAce (row : Ace) (path : Path) (role : Id) (allowed propagates : Bool) (hrow : row ∈ s.aces)
      (hpath : path = row.path ∨ path.fault? = none) (hrole : role = row.role ∨ role ∈ s.roles.map (·.id))
      (hnew : ∀ a ∈ s.aces, a.id ≠ row.id → a.key ≠ (path, row.subject, role)) :
      Change now s { s with
        aces := s.aces.map fun a =>
          if a.id = row.id then { row with path, role, allowed, propagates, updated := now } else a }
  | removeAces (keep : Ace → Bool) : Change now s { s with aces := s.aces.filter keep }

/-- Elementary changes one after the other. -/
abbrev Changes (now : Stamp) : Store → Store → Prop := ReflTransGen (Change now)

namespace Store

variable {now : Stamp} {s t : Store}

/-! ## Seeding -/

theorem foldl_changes {α : Type} {f : Store → α → Store} {items : List α}
    (hf : ∀ s, ∀ a ∈ items, Changes now s (f s a)) (s : Store) : Changes now s (items.foldl f s) := by
  induction items generalizing s with
  | nil => exact .refl
  | cons a rest ih =>
    exact (hf s a (by simp)).trans (ih (fun s b hb => hf s b (List.mem_cons_of_mem a hb)) (f s a))

theorem seedPrivilege_changes {p : Catalog.Privilege} (hp : p ∈ Catalog.privileges) :
    Changes now s (s.seedPrivilege now p) := by
  have hvalid : ∀ p ∈ Catalog.privileges, PrivilegeName.isValid p.name = true := by decide +kernel
  unfold seedPrivilege
  split
  · exact .refl
  · rename_i hnew
    exact .single (.addPrivilege p.name _ (hvalid p hp) (by simpa using hnew))

theorem seedRole_changes {r : Catalog.Role} (hr : r ∈ Catalog.roles) : Changes now s (s.seedRole now r) := by
  have hname : ∀ r ∈ Catalog.roles, Text.isBlank r.name = false := by decide +kernel
  unfold seedRole
  split
  · exact .refl
  · rename_i hnew
    exact .single (.addRole r.name _ true (hname r hr) (by simpa using hnew))

theorem seedMembership_changes (names : String × String) : Changes now s (s.seedMembership names) := by
  unfold seedMembership
  split
  · rename_i role privilege hrole hprivilege
    exact .single (.attach role.id privilege.id (List.mem_map_of_mem (List.mem_of_find?_eq_some hrole))
      (List.mem_map_of_mem (List.mem_of_find?_eq_some hprivilege)))
  · exact .refl

theorem seed_changes : Changes now s (s.seed now) := by
  have hprivileges : ∀ s, ∀ p ∈ sortedBy (·.name) Catalog.privileges, Changes now s (s.seedPrivilege now p) :=
    fun s p hp => seedPrivilege_changes (mem_sorted.mp hp)
  have hroles : ∀ s, ∀ r ∈ sortedBy (·.name) Catalog.roles, Changes now s (s.seedRole now r) :=
    fun s r hr => seedRole_changes (mem_sorted.mp hr)
  exact ((foldl_changes hprivileges s).trans (foldl_changes hroles _)).trans
    (foldl_changes (fun s names _ => seedMembership_changes names) _)

end Store

/-! ## All operations -/

namespace Operation

variable {now : Stamp} {s : Store}

theorem nameFault_eq_none {blank : InvalidInput} {name : String} (h : nameFault? blank name = none) :
    Text.isBlank name = false := by
  unfold nameFault? at h
  split at h
  · exact absurd h (by simp)
  · rename_i hblank
    simpa using hblank

theorem privilegeNameFault_eq_none {name : String} (h : privilegeNameFault? name = none) :
    PrivilegeName.isValid name = true := by
  unfold privilegeNameFault? at h
  split at h
  · rename_i hvalid
    exact hvalid
  · exact absurd h (by simp)

theorem Effect.changes {op : Operation} {reply : Reply} (h : Effect now s op reply) (hfault : op.fault? = none) :
    Changes now s reply.2 := by
  cases h with
  | userAdded hnew => exact .single (.addUser _ (nameFault_eq_none hfault) hnew)
  | userAbsent | userDeleted => exact .single (.removeUser _)
  | groupAdded hnew => exact .single (.addGroup _ (nameFault_eq_none hfault) hnew)
  | groupAbsent | groupDeleted => exact .single (.removeGroup _)
  | roleAdded hnew => exact .single (.addRole _ _ false (nameFault_eq_none hfault) hnew)
  | @roleChanged id row update t hrow hid hcustom hnew ht =>
    subst hid ht
    refine .single (.changeRole row _ _ hrow hcustom ?_ hnew)
    cases hgiven : update.name with
    | none => exact Or.inl (by rw [RoleUpdate.apply, hgiven, Option.getD_none])
    | some name =>
      have hname : nameFault? .blankRoleName name = none := by simpa [fault?, hgiven] using hfault
      exact Or.inr (by rw [RoleUpdate.apply, hgiven, Option.getD_some]; exact nameFault_eq_none hname)
  | roleDeleted hrow hid hcustom =>
    subst hid
    exact .single (.removeRole _ hrow hcustom)
  | attached hrow hid hprivilege hnew ht =>
    subst hid ht
    exact (ReflTransGen.single (.attach _ _ (List.mem_map_of_mem hrow) hprivilege)).tail (.touchRole _)
  | detached hrow hid hmember ht =>
    subst hid ht
    exact (ReflTransGen.single (.detach _ _)).tail (.touchRole _)
  | privilegeAdded hnew => exact .single (.addPrivilege _ _ (privilegeNameFault_eq_none hfault) hnew)
  | @privilegeChanged id row update hrow hid hnew =>
    subst hid
    refine .single (.changePrivilege row _ _ hrow ?_ hnew)
    cases hgiven : update.name with
    | none => exact Or.inl (by rw [PrivilegeUpdate.apply, hgiven, Option.getD_none])
    | some name =>
      have hname : privilegeNameFault? name = none := by simpa [fault?, hgiven] using hfault
      exact Or.inr (by rw [PrivilegeUpdate.apply, hgiven, Option.getD_some]; exact privilegeNameFault_eq_none hname)
  | privilegeAbsent | privilegeDeleted => exact .single (.removePrivilege _)
  | @aceAdded new subject ace hrole hgiven hsubject hnew hace =>
    subst hace
    have hpath : new.path.fault? = none := by simpa [fault?] using hfault
    exact .single (.addAce new.path subject new.role _ _ hpath hrole hsubject hnew)
  | @aceChanged id row update hrow hid hrole hnew =>
    subst hid
    refine .single (.changeAce row _ _ _ _ hrow ?_ ?_ hnew)
    · cases hgiven : update.path with
      | none => exact Or.inl (by rw [AceUpdate.apply, hgiven, Option.getD_none])
      | some path =>
        have hpath : path.fault? = none := by simpa [fault?, hgiven] using hfault
        exact Or.inr (by rw [AceUpdate.apply, hgiven, Option.getD_some, hpath])
    · cases hgiven : update.role with
      | none => exact Or.inl (by rw [AceUpdate.apply, hgiven, Option.getD_none])
      | some role => exact Or.inr (by rw [AceUpdate.apply, hgiven, Option.getD_some]; exact hrole role hgiven)
  | aceAbsent | aceDeleted | purged | resourcePurged => exact .single (.removeAces _)
  | seeded =>
    dsimp only
    exact Store.seed_changes
  -- what is refused, and what only looks, changes nothing
  | _ => exact .refl

/-- **An operation makes elementary changes only**, and none when it is refused for its input. -/
theorem run_changes (now : Stamp) (op : Operation) (s : Store) : Changes now s (op.run now s).2 := by
  unfold run
  cases hfault : op.fault? with
  | some fault => exact .refl
  | none => exact (perform_effect now op s).changes hfault

end Operation

theorem Changes.induction {P : Store → Prop} {now : Stamp} (hchange : ∀ s t, Change now s t → P s → P t)
    {s t : Store} (h : Changes now s t) (hs : P s) : P t := by
  induction h with
  | refl => exact hs
  | tail _ hlast ih => exact hchange _ _ hlast ih

/-- What the empty store has and every elementary change keeps, every reachable store has. -/
theorem Reachable.of_changes {P : Store → Prop} (hempty : P {})
    (hchange : ∀ now s t, Change now s t → P s → P t) {s : Store} (h : Reachable s) : P s := by
  induction h with
  | empty => exact hempty
  | step now op _ ih => exact (op.run_changes now _).induction (hchange now) ih

end ResourceAccess
