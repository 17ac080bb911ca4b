import ResourceAccess.Proofs.Store.Cascade
import ResourceAccess.Proofs.Store.Views

/-!
# What an update changes

Roles, privileges and entries are updated field by field: of each field the update gives a new value or nothing.  The
three updates check different things and write different fields, but what they amount to is the same.  One row takes the
place of another, with the given fields and the stamp of now, and nothing else changes.

* `Given`: what is in a field after an update
* `RowUpdate`, `RowUpdate.Sets`: an update of one of the three kinds, and what it makes of a row
* `Store.Replaces`: a row takes the place of another one, and all else stays
* `Engine.Shows`: how a row is read
* `Engine.update_sets_fields`: **an update sets the fields that it gives, and nothing else**
-/

namespace ResourceAccess

/-! ## Fields -/

/-- A field that is given has the given value, and one that is not has the old one. -/
structure Given {α : Type} (given : Option α) (old new : α) : Prop where
  set : ∀ v, given = some v → new = v
  kept : given = none → new = old

theorem given_iff {α : Type} {given : Option α} {old new : α} : Given given old new ↔ new = given.getD old := by
  cases given with
  | none => exact ⟨fun h => h.kept rfl, fun heq => ⟨fun _ h => absurd h (by simp), fun _ => heq⟩⟩
  | some v =>
    exact ⟨fun h => h.set v rfl, fun heq => ⟨fun _ h => heq.trans (Option.some.inj h), fun h => absurd h (by simp)⟩⟩

/-- A field that may be empty can be filled, but not emptied. -/
theorem given_some_iff {α : Type} {given old new : Option α} :
    Given (given.map some) old new ↔ new = (given <|> old) := by
  rw [given_iff]
  cases given <;> rfl

structure RoleUpdate.Sets (update : RoleUpdate) (now : Stamp) (old new : RoleRow) : Prop where
  name : Given update.name old.name new.name
  description : Given (update.description.map some) old.description new.description
  id : new.id = old.id
  builtin : new.builtin = old.builtin
  created : new.created = old.created
  updated : new.updated = now

structure PrivilegeUpdate.Sets (update : PrivilegeUpdate) (now : Stamp) (old new : Privilege) : Prop where
  name : Given update.name old.name new.name
  description : Given (update.description.map some) old.description new.description
  id : new.id = old.id
  created : new.created = old.created
  updated : new.updated = now

structure AceUpdate.Sets (update : AceUpdate) (now : Stamp) (old new : Ace) : Prop where
  path : Given update.path old.path new.path
  role : Given update.role old.role new.role
  allowed : Given update.allowed old.allowed new.allowed
  propagates : Given update.propagates old.propagates new.propagates
  id : new.id = old.id
  subject : new.subject = old.subject
  created : new.created = old.created
  updated : new.updated = now

section Sets

variable {now : Stamp}

/-- Field by field, this is the update that is done. -/
theorem RoleUpdate.sets_iff {update : RoleUpdate} {old new : RoleRow} :
    update.Sets now old new ↔ new = { update.apply old with updated := now } := by
  constructor
  · intro h
    cases new
    exact (RoleRow.mk.injEq ..).mpr
      ⟨h.id, given_iff.mp h.name, given_some_iff.mp h.description, h.builtin, h.created, h.updated⟩
  · rintro rfl
    exact ⟨given_iff.mpr rfl, given_some_iff.mpr rfl, rfl, rfl, rfl, rfl⟩

theorem PrivilegeUpdate.sets_iff {update : PrivilegeUpdate} {old new : Privilege} :
    update.Sets now old new ↔ new = { update.apply old with updated := now } := by
  constructor
  · intro h
    cases new
    exact (Privilege.mk.injEq ..).mpr
      ⟨h.id, given_iff.mp h.name, given_some_iff.mp h.description, h.created, h.updated⟩
  · rintro rfl
    exact ⟨given_iff.mpr rfl, given_some_iff.mpr rfl, rfl, rfl, rfl⟩

theorem AceUpdate.sets_iff {update : AceUpdate} {old new : Ace} :
    update.Sets now old new ↔ new = { update.apply old with updated := now } := by
  constructor
  · intro h
    cases new
    exact (Ace.mk.injEq ..).mpr ⟨h.id, given_iff.mp h.path, h.subject, given_iff.mp h.role, given_iff.mp h.allowed,
      given_iff.mp h.propagates, h.created, h.updated⟩
  · rintro rfl
    exact ⟨given_iff.mpr rfl, given_iff.mpr rfl, given_iff.mpr rfl, given_iff.mpr rfl, rfl, rfl, rfl, rfl⟩

end Sets

inductive RowUpdate where
  | role (update : RoleUpdate)
  | privilege (update : PrivilegeUpdate)
  | ace (update : AceUpdate)
deriving DecidableEq

namespace RowUpdate

def kind : RowUpdate → Entity
  | .role _ => .role
  | .privilege _ => .privilege
  | .ace _ => .ace

def operation (id : Id) : RowUpdate → Operation
  | .role update => .updateRole id update
  | .privilege update => .updatePrivilege id update
  | .ace update => .updateAce id update

/-- The new row is the old one with the fields that are given and a new stamp. -/
inductive Sets (now : Stamp) : RowUpdate → Row → Row → Prop
  | role {update : RoleUpdate} {old new : RoleRow} (h : update.Sets now old new) :
    Sets now (.role update) (.role old) (.role new)
  | privilege {update : PrivilegeUpdate} {old new : Privilege} (h : update.Sets now old new) :
    Sets now (.privilege update) (.privilege old) (.privilege new)
  | ace {update : AceUpdate} {old new : Ace} (h : update.Sets now old new) :
    Sets now (.ace update) (.ace old) (.ace new)

end RowUpdate

/-! ## One row for another -/

namespace Store

/-- The second store has the new row in the place of the old one, the only row with the key, and is else like the first
one. -/
structure Replaces (s : Store) (key : Entity × Id) (old new : Row) (t : Store) : Prop where
  only : ∀ row ∈ s.rows, row.key? = some key ↔ row = old
  mem : old ∈ s.rows
  key : new.key? = some key
  rows : t.rows = s.rows.map fun row => if row = old then new else row
  issued : t.issued = s.issued

variable {s t : Store} {key : Entity × Id} {old new : Row}

theorem Replaces.mem_rows_iff (h : s.Replaces key old new t) {row : Row} (hkey : row.key? ≠ some key) :
    row ∈ t.rows ↔ row ∈ s.rows := by
  rw [h.rows, List.mem_map]
  constructor
  · rintro ⟨row', hrow, rfl⟩
    by_cases hold : row' = old
    · rw [if_pos hold] at hkey
      exact absurd h.key hkey
    · rw [if_neg hold]
      exact hrow
  · intro hrow
    have hold : row ≠ old := fun heq => hkey ((h.only row hrow).mpr heq)
    exact ⟨row, hrow, if_neg hold⟩

theorem Replaces.memberships (h : s.Replaces key old new t) (m : Membership) :
    m ∈ t.memberships ↔ m ∈ s.memberships := by
  have hrows : Row.membership m ∈ t.rows ↔ Row.membership m ∈ s.rows := h.mem_rows_iff (by simp [Row.key?])
  rwa [Store.mem_rows_iff, Store.mem_rows_iff] at hrows

section Tables

variable {α : Type} {wrap : α → Row} {id : α → Id} {table : List α}

/-- In a table of another kind there is nothing to replace. -/
theorem map_wrap_other (hother : ∀ a, wrap a ≠ old) :
    (table.map wrap).map (fun row => if row = old then new else row) = table.map wrap := by
  rw [List.map_map]
  exact List.map_congr_left fun a _ => if_neg (hother a)

/-- Replacing the row with an identifier is replacing the one row that bears it. -/
theorem map_wrap_replace (hwrap : ∀ a b, wrap a = wrap b → a = b) (hids : (table.map id).Nodup) {row : α}
    (hrow : row ∈ table) (changed : α) :
    (table.map fun a => if id a = id row then changed else a).map wrap =
      (table.map wrap).map fun r => if r = wrap row then wrap changed else r := by
  rw [List.map_map, List.map_map]
  refine List.map_congr_left fun a ha => ?_
  by_cases hid : id a = id row
  · obtain rfl := List.inj_on_of_nodup_map hids ha hrow hid
    simp
  · have hne : wrap a ≠ wrap row := fun heq => hid (congrArg id (hwrap _ _ heq))
    simp [hid, hne]

end Tables

theorem mem_table_of_key {kind : Entity} {id : Id} {row : Row} (hrow : row ∈ s.rows)
    (hkey : row.key? = some (kind, id)) :
    match kind with
    | .user => ∃ u ∈ s.users, u.id = id ∧ row = .user u
    | .group => ∃ g ∈ s.groups, g.id = id ∧ row = .group g
    | .role => ∃ r ∈ s.roles, r.id = id ∧ row = .role r
    | .privilege => ∃ p ∈ s.privileges, p.id = id ∧ row = .privilege p
    | .ace => ∃ a ∈ s.aces, a.id = id ∧ row = .ace a := by
  cases row with
  | membership m => exact absurd hkey (by simp [Row.key?])
  | _ =>
    obtain ⟨rfl, rfl⟩ := Prod.mk.inj (Option.some.inj hkey)
    exact ⟨_, Store.mem_rows_iff.mp hrow, rfl, rfl⟩

theorem Sound.row_eq_of_key (hs : s.Sound) {a b : Row} (ha : a ∈ s.rows) (hb : b ∈ s.rows) (hakey : a.key? = some key)
    (hbkey : b.key? = some key) : a = b := by
  obtain ⟨kind, id⟩ := key
  have hfirst := mem_table_of_key ha hakey
  have hsecond := mem_table_of_key hb hbkey
  cases kind with
  | user =>
    obtain ⟨u, hu, hid, rfl⟩ := hfirst
    obtain ⟨v, hv, rfl, rfl⟩ := hsecond
    rw [hs.users.eq_of_id_eq hu hv hid]
  | group =>
    obtain ⟨g, hg, hid, rfl⟩ := hfirst
    obtain ⟨g', hg', rfl, rfl⟩ := hsecond
    rw [hs.groups.eq_of_id_eq hg hg' hid]
  | role =>
    obtain ⟨r, hr, hid, rfl⟩ := hfirst
    obtain ⟨r', hr', rfl, rfl⟩ := hsecond
    rw [hs.roles.eq_of_id_eq hr hr' hid]
  | privilege =>
    obtain ⟨p, hp, hid, rfl⟩ := hfirst
    obtain ⟨q, hq, rfl, rfl⟩ := hsecond
    rw [hs.privileges.eq_of_id_eq hp hq hid]
  | ace =>
    obtain ⟨c, hc, hid, rfl⟩ := hfirst
    obtain ⟨d, hd, rfl, rfl⟩ := hsecond
    rw [hs.aces.eq_of_id_eq hc hd hid]

theorem Sound.replaces (hs : s.Sound) (hold : old ∈ s.rows) (holdKey : old.key? = some key)
    (hnewKey : new.key? = some key) (hrows : t.rows = s.rows.map fun row => if row = old then new else row)
    (hissued : t.issued = s.issued) : s.Replaces key old new t where
  only := fun _ hrow => ⟨fun hkey => hs.row_eq_of_key hrow hold hkey holdKey, fun heq => heq ▸ holdKey⟩
  mem := hold
  key := hnewKey
  rows := hrows
  issued := hissued

theorem Sound.replaces_role (hs : s.Sound) {row changed : RoleRow} (hrow : row ∈ s.roles) (hid : changed.id = row.id) :
    s.Replaces (.role, row.id) (.role row) (.role changed)
      { s with roles := s.roles.map fun r => if r.id = row.id then changed else r } := by
  refine hs.replaces (Store.mem_rows_iff.mpr hrow) rfl (by rw [Row.key?, hid]) ?_ rfl
  simp only [Store.rows, List.map_append]
  rw [map_wrap_replace (fun _ _ h => Row.role.inj h) hs.roles.ids_nodup hrow]
  simp only [map_wrap_other, ne_eq, reduceCtorEq, not_false_eq_true, implies_true]

theorem Sound.replaces_privilege (hs : s.Sound) {row changed : Privilege} (hrow : row ∈ s.privileges)
    (hid : changed.id = row.id) : s.Replaces (.privilege, row.id) (.privilege row) (.privilege changed)
      { s with privileges := s.privileges.map fun p => if p.id = row.id then changed else p } := by
  refine hs.replaces (Store.mem_rows_iff.mpr hrow) rfl (by rw [Row.key?, hid]) ?_ rfl
  simp only [Store.rows, List.map_append]
  rw [map_wrap_replace (fun _ _ h => Row.privilege.inj h) hs.privileges.ids_nodup hrow]
  simp only [map_wrap_other, ne_eq, reduceCtorEq, not_false_eq_true, implies_true]

theorem Sound.replaces_ace (hs : s.Sound) {row changed : Ace} (hrow : row ∈ s.aces) (hid : changed.id = row.id) :
    s.Replaces (.ace, row.id) (.ace row) (.ace changed)
      { s with aces := s.aces.map fun a => if a.id = row.id then changed else a } := by
  refine hs.replaces (Store.mem_rows_iff.mpr hrow) rfl (by rw [Row.key?, hid]) ?_ rfl
  simp only [Store.rows, List.map_append]
  rw [map_wrap_replace (fun _ _ h => Row.ace.inj h) hs.aces.ids_nodup hrow]
  simp only [map_wrap_other, ne_eq, reduceCtorEq, not_false_eq_true, implies_true]

def shown (s : Store) : Row → Answer
  | .user u => .user u
  | .group g => .group g
  | .role r => .role (s.load r)
  | .privilege p => .privilege p
  | .membership _ => .absent
  | .ace a => .ace a

end Store

/-! ## The operations -/

namespace Operation.Effect

variable {now : Stamp} {s : Store} {id : Id}

/-- What an update may come to: there is no such row, or it is refused, or the row is replaced. -/
theorem update_cases (hs : s.Sound) {update : RowUpdate} {reply : Reply}
    (h : Effect now s (update.operation id) reply) :
    (s.hasRow (update.kind, id) = false ∧ reply.1 = .ok .absent) ∨
    (s.hasRow (update.kind, id) = true ∧ ∃ error, reply.1 = .error error) ∨
    (s.hasRow (update.kind, id) = true ∧ ∃ old new, s.Replaces (update.kind, id) old new reply.2 ∧
      update.Sets now old new ∧ reply.1 = .ok (reply.2.shown new)) := by
  cases update with
  | role update =>
    cases h with
    | read hread => exact absurd hread Bool.false_ne_true
    | updatedRoleAbsent habsent => exact Or.inl ⟨Store.hasRow_eq_false_iff.mpr habsent, rfl⟩
    | updatedRoleBuiltin hrow hid => exact Or.inr (Or.inl ⟨Store.hasRow_iff.mpr ⟨_, hrow, hid⟩, _, rfl⟩)
    | newRoleNameTaken hrow hid => exact Or.inr (Or.inl ⟨Store.hasRow_iff.mpr ⟨_, hrow, hid⟩, _, rfl⟩)
    | roleChanged hrow hid _ _ ht =>
      subst hid ht
      exact Or.inr (Or.inr ⟨Store.hasRow_iff.mpr ⟨_, hrow, rfl⟩, _, _, hs.replaces_role hrow rfl,
        RowUpdate.Sets.role (RoleUpdate.sets_iff.mpr rfl), rfl⟩)
  | privilege update =>
    cases h with
    | read hread => exact absurd hread Bool.false_ne_true
    | updatedPrivilegeAbsent habsent => exact Or.inl ⟨Store.hasRow_eq_false_iff.mpr habsent, rfl⟩
    | newPrivilegeNameTaken hrow hid => exact Or.inr (Or.inl ⟨Store.hasRow_iff.mpr ⟨_, hrow, hid⟩, _, rfl⟩)
    | privilegeChanged hrow hid =>
      subst hid
      exact Or.inr (Or.inr ⟨Store.hasRow_iff.mpr ⟨_, hrow, rfl⟩, _, _, hs.replaces_privilege hrow rfl,
        RowUpdate.Sets.privilege (PrivilegeUpdate.sets_iff.mpr rfl), rfl⟩)
  | ace update =>
    cases h with
    | read hread => exact absurd hread Bool.false_ne_true
    | updatedAceAbsent habsent => exact Or.inl ⟨Store.hasRow_eq_false_iff.mpr habsent, rfl⟩
    | newAceRoleAbsent hrow hid => exact Or.inr (Or.inl ⟨Store.hasRow_iff.mpr ⟨_, hrow, hid⟩, _, rfl⟩)
    | changedAceTaken hrow hid => exact Or.inr (Or.inl ⟨Store.hasRow_iff.mpr ⟨_, hrow, hid⟩, _, rfl⟩)
    | aceChanged hrow hid =>
      subst hid
      exact Or.inr (Or.inr ⟨Store.hasRow_iff.mpr ⟨_, hrow, rfl⟩, _, _, hs.replaces_ace hrow rfl,
        RowUpdate.Sets.ace (AceUpdate.sets_iff.mpr rfl), rfl⟩)

end Operation.Effect

namespace Engine

/-- However the row is read, it is with this answer: by its identifier, by its name if it has one, and in the list of
its table.  With a role its privileges are read, and they are those that are listed for it. -/
def Shows (e : Engine) (row : Row) (answer : Answer) : Prop :=
  ∀ later, match row with
    | .role r => (e.run later (.getRole r.id)).1 = .ok answer ∧ (e.run later (.getRoleNamed r.name)).1 = .ok answer ∧
        ∃ role : Role, answer = .role role ∧ role.toRoleRow = r ∧
          (e.run later (.listRolePrivileges r.id)).1 = .ok (.privileges role.privileges) ∧
          ∃ roles, (e.run later .listRoles).1 = .ok (.roles roles) ∧ role ∈ roles
    | .privilege p => answer = .privilege p ∧ (e.run later (.getPrivilege p.id)).1 = .ok answer ∧
        (e.run later (.getPrivilegeNamed p.name)).1 = .ok answer ∧
        ∃ privileges, (e.run later .listPrivileges).1 = .ok (.privileges privileges) ∧ p ∈ privileges
    | .ace a => answer = .ace a ∧ (e.run later (.getAce a.id)).1 = .ok answer ∧
        ∃ aces, (e.run later .listAces).1 = .ok (.aces aces) ∧ a ∈ aces
    | _ => False

variable {e : Engine}

theorem shows_role (hs : e.store.Sound) (hfree : e.connection = .free) {row : RoleRow} (hrow : row ∈ e.store.roles) :
    e.Shows (.role row) (.role (e.store.load row)) := by
  intro later
  refine ⟨?_, ?_, e.store.load row, rfl, rfl, run_eq_perform hfree rfl, e.store.roleList, run_eq_perform hfree rfl, ?_⟩
  · rw [run_eq_perform hfree rfl, Operation.perform, hs.role_eq_some hrow]
    rfl
  · rw [run_eq_perform hfree rfl, Operation.perform, hs.roleNamed_eq_some hrow]
    rfl
  · rw [Store.roleList_eq hs]
    exact List.mem_map_of_mem ((sortedBy_perm _ _).mem_iff.mpr hrow)

theorem shows_privilege (hs : e.store.Sound) (hfree : e.connection = .free) {row : Privilege}
    (hrow : row ∈ e.store.privileges) : e.Shows (.privilege row) (.privilege row) := by
  intro later
  refine ⟨rfl, ?_, ?_, e.store.privilegeList, run_eq_perform hfree rfl, (sortedBy_perm _ _).mem_iff.mpr hrow⟩
  · have hfound : e.store.privilege? row.id = some row :=
      (find_key_eq_some_iff hs.privileges.ids_nodup).mpr ⟨hrow, rfl⟩
    rw [run_eq_perform hfree rfl, Operation.perform, hfound]
    rfl
  · have hnamed : e.store.privilegeNamed? row.name = some row :=
      (find_key_eq_some_iff hs.privileges.keys_nodup).mpr ⟨hrow, rfl⟩
    rw [run_eq_perform hfree rfl, Operation.perform, hnamed]
    rfl

theorem shows_ace (hs : e.store.Sound) (hfree : e.connection = .free) {row : Ace} (hrow : row ∈ e.store.aces) :
    e.Shows (.ace row) (.ace row) := by
  intro later
  refine ⟨rfl, ?_, e.store.aceList, run_eq_perform hfree rfl, Store.mem_aceList.mpr hrow⟩
  have hfound : e.store.ace? row.id = some row := (find_key_eq_some_iff hs.aces.ids_nodup).mpr ⟨hrow, rfl⟩
  rw [run_eq_perform hfree rfl, Operation.perform, hfound]
  rfl

/-- A row that an update has made is read as it is. -/
theorem shows_of_sets (hs : e.store.Sound) (hfree : e.connection = .free) {now : Stamp} {update : RowUpdate}
    {old new : Row} (hsets : update.Sets now old new) (hnew : new ∈ e.store.rows) :
    e.Shows new (e.store.shown new) := by
  cases hsets with
  | role => exact shows_role hs hfree (Store.mem_rows_iff.mp hnew)
  | privilege => exact shows_privilege hs hfree (Store.mem_rows_iff.mp hnew)
  | ace => exact shows_ace hs hfree (Store.mem_rows_iff.mp hnew)

/-- **An update sets the fields that it gives, and nothing else.**  If there is a row with the identifier and the update
succeeds, another row stands in its place, with the given values in the given fields, the old ones in the others and the
stamp of now.  All other rows are as they were, every role has the privileges that it had, and the answer is what any
look-up of the row gives from then on.  An update whose input is sound finds nothing exactly if there is no such row. -/
theorem update_sets_fields (h : Reachable e.store) (now : Stamp) (update : RowUpdate) (id : Id) :
    ((∃ row ∈ e.store.rows, row.key? = some (update.kind, id)) →
      ∀ answer e', e.run now (update.operation id) = (.ok answer, e') →
        ∃ old new, e.store.Replaces (update.kind, id) old new e'.store ∧ update.Sets now old new ∧
          e'.Shows new answer ∧ ∀ role privilege, e'.store.Attached role privilege ↔ e.store.Attached role privilege) ∧
    (e.connection = .free → (update.operation id).fault? = none →
      ((e.run now (update.operation id)).1 = .ok .absent ↔
        ¬ ∃ row ∈ e.store.rows, row.key? = some (update.kind, id))) := by
  have hs := h.sound
  have hrow : (∃ row ∈ e.store.rows, row.key? = some (update.kind, id)) ↔
      e.store.hasRow (update.kind, id) = true := by simp [Store.hasRow]
  have heffect : (update.operation id).fault? = none →
      (update.operation id).Effect now e.store ((update.operation id).run now e.store) := by
    intro hfault
    rw [Operation.run_eq_perform hfault]
    exact Operation.perform_effect now _ _
  rw [hrow]
  refine ⟨fun hhas answer e' hrun => ?_, fun hfree hfault => ?_⟩
  · obtain ⟨hfault, hfree⟩ := free_of_answer (congrArg Prod.fst hrun)
    have hsound : ((update.operation id).run now e.store).2.Sound := (h.step now _).sound
    rw [run_eq_of_free hfree] at hrun
    obtain ⟨hanswer, rfl⟩ := Prod.mk.inj hrun
    rcases (heffect hfault).update_cases hs with ⟨hnone, -⟩ | ⟨-, error, herror⟩ |
      ⟨-, old, new, hreplaces, hsets, hshown⟩
    · rw [hnone] at hhas
      exact absurd hhas Bool.false_ne_true
    · rw [hanswer] at herror
      exact absurd herror (by simp)
    · obtain rfl := Except.ok.inj (hanswer.symm.trans hshown)
      have hnew : new ∈ ((update.operation id).run now e.store).2.rows := by
        rw [hreplaces.rows]
        exact List.mem_map.mpr ⟨old, hreplaces.mem, if_pos rfl⟩
      have hshows := shows_of_sets (e := { e with store := ((update.operation id).run now e.store).2 }) hsound hfree
        hsets hnew
      refine ⟨old, new, hreplaces, hsets, hshows, fun role privilege => ?_⟩
      rw [hsound.attached_iff, hs.attached_iff]
      exact hreplaces.memberships _
  · rw [run_eq_of_free hfree]
    rcases (heffect hfault).update_cases hs with ⟨hnone, habsent⟩ | ⟨hhas, error, herror⟩ |
      ⟨hhas, old, new, -, hsets, hshown⟩
    · simp [habsent, hnone]
    · simp [herror, hhas]
    · cases hsets <;> simp [hshown, hhas, Store.shown]

def described : History :=
  [(⟨"1"⟩, .createUser "ann"), (⟨"2"⟩, .createRole "operator" (some "Runs nodes")),
    (⟨"3"⟩, .createPrivilege "Node.Console" none), (⟨"4"⟩, .addPrivilege (.issue .role 1) (.issue .privilege 1)),
    (⟨"5"⟩, .createAce (.forUser .root (.issue .user 1) (.issue .role 1)))]

/-- The role is renamed and keeps its description and its privilege, the entry is updated with nothing but a stamp, and
there is no second privilege. -/
theorem update_sets_fields_described :
    (∃ e' : Engine, ∃ role : Role,
      ({ store := Store.after {} described } : Engine).run ⟨"6"⟩
        (.updateRole (.issue .role 1) { name := some "console" }) = (.ok (.role role), e') ∧
      role.toRoleRow = ⟨.issue .role 1, "console", some "Runs nodes", false, ⟨"2"⟩, ⟨"6"⟩⟩ ∧
      (e'.run ⟨"7"⟩ (.getRoleNamed "console")).1 = .ok (.role role) ∧
      e'.store.Attached (.issue .role 1) (.issue .privilege 1)) ∧
    (({ store := Store.after {} described } : Engine).run ⟨"6"⟩ (.updateAce (.issue .ace 1) {})).1 =
      .ok (.ace ⟨.issue .ace 1, .root, .user (.issue .user 1), .issue .role 1, true, true, ⟨"5"⟩, ⟨"6"⟩⟩) ∧
    (({ store := Store.after {} described } : Engine).run ⟨"6"⟩
      (.updatePrivilege (.issue .privilege 2) { name := some "Node.Mount" })).1 = .ok .absent := by
  have hrules := update_sets_fields (e := { store := Store.after {} described }) (Reachable.empty.after described) ⟨"6"⟩
  refine ⟨?_, ?_, ?_⟩
  · obtain ⟨hsets, -⟩ := hrules (.role { name := some "console" }) (.issue .role 1)
    obtain ⟨answer, hanswer⟩ : ∃ answer, (({ store := Store.after {} described } : Engine).run ⟨"6"⟩
        (.updateRole (.issue .role 1) { name := some "console" })).1 = .ok answer :=
      ⟨.role ⟨⟨.issue .role 1, "console", some "Runs nodes", false, ⟨"2"⟩, ⟨"6"⟩⟩,
        [⟨.issue .privilege 1, "Node.Console", none, ⟨"3"⟩, ⟨"3"⟩⟩]⟩, by decide +kernel⟩
    have hbefore : (Store.after {} described).Attached (.issue .role 1) (.issue .privilege 1) :=
      (Store.sound_after described).attached_iff.mpr (by decide +kernel)
    obtain ⟨old, new, hreplaces, hnew, hshows, hattached⟩ := hsets (by decide +kernel) answer _ (Prod.ext hanswer rfl)
    obtain rfl : Row.role ⟨.issue .role 1, "operator", some "Runs nodes", false, ⟨"2"⟩, ⟨"4"⟩⟩ = old :=
      (hreplaces.only _ (by decide +kernel)).mp rfl
    cases hnew with
    | role h =>
      obtain ⟨-, hnamed, role, rfl, hrole, -⟩ := hshows ⟨"7"⟩
      rw [RoleUpdate.sets_iff.mp h] at hnamed hrole
      exact ⟨_, role, Prod.ext hanswer rfl, hrole, hnamed, (hattached _ _).mpr hbefore⟩
  · obtain ⟨hsets, -⟩ := hrules (.ace {}) (.issue .ace 1)
    obtain ⟨answer, hanswer⟩ : ∃ answer, (({ store := Store.after {} described } : Engine).run ⟨"6"⟩
        (.updateAce (.issue .ace 1) {})).1 = .ok answer :=
      ⟨.ace ⟨.issue .ace 1, .root, .user (.issue .user 1), .issue .role 1, true, true, ⟨"5"⟩, ⟨"6"⟩⟩, by decide +kernel⟩
    obtain ⟨old, new, hreplaces, hnew, hshows, -⟩ := hsets (by decide +kernel) answer _ (Prod.ext hanswer rfl)
    obtain rfl : Row.ace ⟨.issue .ace 1, .root, .user (.issue .user 1), .issue .role 1, true, true, ⟨"5"⟩, ⟨"5"⟩⟩ =
        old := (hreplaces.only _ (by decide +kernel)).mp rfl
    cases hnew with
    | ace h =>
      obtain ⟨rfl, -⟩ := hshows ⟨"7"⟩
      rw [hanswer, AceUpdate.sets_iff.mp h]
      rfl
  · obtain ⟨-, habsent⟩ := hrules (.privilege { name := some "Node.Mount" }) (.issue .privilege 2)
    exact (habsent rfl (by decide +kernel)).mpr (by decide +kernel)

end Engine

end ResourceAccess
