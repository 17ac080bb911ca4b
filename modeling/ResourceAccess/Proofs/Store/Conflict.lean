import Mathlib.Data.List.Nodup
import ResourceAccess.Proofs.Store.Sound

/-!
# Uniqueness, and the conflicts that guard it

Names are unique, a role holds a privilege once, and a subject has one entry for a role at a path.  An operation that
would break this is answered with a conflict.  The tables look for it in two ways: by a look-up of the name before the
write, and by the key that the written entry would have.  Either way the conflict is answered exactly when there is a
row in the way, and whatever else the input is checked for comes out in its favour then.

* `Operation.Clash`: the row that is in the way of an operation
* `Operation.Clash.input_sound`: such an operation has a sound input
* `Operation.Effect.clash`, `Operation.Clash.answered`: on the tables, a conflict is answered exactly when there is one
* `Engine.conflict_iff_clash`: **so does the engine, in every reachable store**
-/

namespace ResourceAccess

/-- What is unique in the tables. -/
structure Store.Distinct (s : Store) : Prop where
  usernames : (s.users.map (·.name)).Nodup
  groupNames : (s.groups.map (·.name)).Nodup
  roleNames : (s.roles.map (·.name)).Nodup
  privilegeNames : (s.privileges.map (·.name)).Nodup
  memberships : s.memberships.Nodup
  userEntries : (s.aces.filterMap fun a => a.subject.user?.map (a.path, ·, a.role)).Nodup
  groupEntries : (s.aces.filterMap fun a => a.subject.group?.map (a.path, ·, a.role)).Nodup

namespace Store.Sound

variable {s : Store}

/-- The entries that bind subjects of one kind differ in path, subject or role. -/
theorem entries_nodup (h : s.Sound) {idOf : Subject → Option Id}
    (hinj : ∀ x y id, idOf x = some id → idOf y = some id → x = y) :
    (s.aces.filterMap fun a => (idOf a.subject).map (a.path, ·, a.role)).Nodup := by
  have hkeys : s.aces.Pairwise fun a b => a.key ≠ b.key := List.pairwise_map.mp h.aces.keys_nodup
  refine List.pairwise_filterMap.mpr (hkeys.imp ?_)
  intro a b hne x hx y hy hxy
  obtain ⟨i, hi, rfl⟩ := Option.map_eq_some_iff.mp hx
  obtain ⟨j, hj, rfl⟩ := Option.map_eq_some_iff.mp hy
  simp only [Prod.mk.injEq] at hxy
  obtain ⟨hpath, rfl, hrole⟩ := hxy
  have hsubject : a.subject = b.subject := hinj _ _ i hi hj
  exact hne (by rw [Ace.key, Ace.key, hpath, hsubject, hrole])

theorem distinct (h : s.Sound) : s.Distinct where
  usernames := h.users.keys_nodup
  groupNames := h.groups.keys_nodup
  roleNames := h.roles.keys_nodup
  privilegeNames := h.privileges.keys_nodup
  memberships := h.memberships_nodup
  userEntries := by
    refine h.entries_nodup fun x y id hx hy => ?_
    cases x <;> cases y <;> simp_all [Subject.user?]
  groupEntries := by
    refine h.entries_nodup fun x y id hx hy => ?_
    cases x <;> cases y <;> simp_all [Subject.group?]

end Store.Sound

namespace Operation

/-- What is in the way of an operation: a row of this kind under this name, or an entry at this path. -/
inductive Clash (s : Store) : Operation → Entity → String → Prop
  | username {u : User} (hu : u ∈ s.users) : Clash s (.createUser u.name) .user u.name
  | groupName {g : Group} (hg : g ∈ s.groups) : Clash s (.createGroup g.name) .group g.name
  | roleName {r : RoleRow} {description : Option String} (hr : r ∈ s.roles) :
    Clash s (.createRole r.name description) .role r.name
  | privilegeName {p : Privilege} {description : Option String} (hp : p ∈ s.privileges) :
    Clash s (.createPrivilege p.name description) .privilege p.name
  | newRoleName {row r : RoleRow} {update : RoleUpdate} (hrow : row ∈ s.roles) (hcustom : row.builtin = false)
    (hr : r ∈ s.roles) (hother : r.id ≠ row.id) (hgiven : update.name = some r.name) :
    Clash s (.updateRole row.id update) .role r.name
  | newPrivilegeName {row p : Privilege} {update : PrivilegeUpdate} (hrow : row ∈ s.privileges)
    (hp : p ∈ s.privileges) (hother : p.id ≠ row.id) (hgiven : update.name = some p.name) :
    Clash s (.updatePrivilege row.id update) .privilege p.name
  | entry {new : NewAce} {a : Ace} (hgiven : new.subject? = some a.subject) (ha : a ∈ s.aces)
    (hpath : a.path = new.path) (hrole : a.role = new.role) : Clash s (.createAce new) .ace new.path.text
  | changedEntry {row a : Ace} {update : AceUpdate} (hrow : row ∈ s.aces) (ha : a ∈ s.aces) (hother : a.id ≠ row.id)
    (hsubject : a.subject = row.subject) (hpath : a.path = update.path.getD row.path)
    (hrole : a.role = update.role.getD row.role) :
    Clash s (.updateAce row.id update) .ace (update.path.getD row.path).text

variable {now : Stamp} {s : Store} {op : Operation} {kind : Entity} {text : String}

theorem Effect.clash (hs : s.Sound) {t : Store} (h : Effect now s op (.error (.conflict kind text), t)) :
    op.Clash s kind text := by
  cases h with
  | usernameTaken htaken =>
    obtain ⟨u, hu, rfl⟩ := htaken
    exact .username hu
  | groupNameTaken htaken =>
    obtain ⟨g, hg, rfl⟩ := htaken
    exact .groupName hg
  | roleNameTaken htaken =>
    obtain ⟨r, hr, rfl⟩ := htaken
    exact .roleName hr
  | privilegeNameTaken htaken =>
    obtain ⟨p, hp, rfl⟩ := htaken
    exact .privilegeName hp
  | @newRoleNameTaken id row update hrow hid hcustom htaken =>
    subst hid
    obtain ⟨r, hr, hother, hname⟩ := htaken
    rw [← hname]
    cases hgiven : update.name with
    | none =>
      rw [RoleUpdate.apply, hgiven, Option.getD_none] at hname
      exact absurd (congrArg RoleRow.id (hs.roles.eq_of_key_eq hr hrow hname)) hother
    | some name =>
      rw [RoleUpdate.apply, hgiven, Option.getD_some] at hname
      exact .newRoleName hrow hcustom hr hother (by rw [hgiven, hname])
  | @newPrivilegeNameTaken id row update hrow hid htaken =>
    subst hid
    obtain ⟨p, hp, hother, hname⟩ := htaken
    rw [← hname]
    cases hgiven : update.name with
    | none =>
      rw [PrivilegeUpdate.apply, hgiven, Option.getD_none] at hname
      exact absurd (congrArg Privilege.id (hs.privileges.eq_of_key_eq hp hrow hname)) hother
    | some name =>
      rw [PrivilegeUpdate.apply, hgiven, Option.getD_some] at hname
      exact .newPrivilegeName hrow hp hother (by rw [hgiven, hname])
  | aceTaken hrole hgiven hsubject htaken =>
    obtain ⟨a, ha, hkey⟩ := htaken
    simp only [Ace.key, Prod.mk.injEq] at hkey
    obtain ⟨hpath, rfl, hrole⟩ := hkey
    exact .entry hgiven ha hpath hrole
  | changedAceTaken hrow hid hrole htaken =>
    subst hid
    obtain ⟨a, ha, hother, hkey⟩ := htaken
    simp only [Ace.key, Prod.mk.injEq] at hkey
    obtain ⟨hpath, hsubject, hrole⟩ := hkey
    exact .changedEntry hrow ha hother hsubject hpath hrole

/-- Where a row is in the way, the operation does nothing but say so. -/
theorem Clash.answered (hs : s.Sound) (hclash : op.Clash s kind text) {reply : Reply} (h : Effect now s op reply) :
    reply = (.error (.conflict kind text), s) := by
  cases hclash with
  | username hu =>
    cases h with
    | read hread => exact absurd hread Bool.false_ne_true
    | usernameTaken => rfl
    | userAdded hnew => exact absurd rfl (hnew _ hu)
  | groupName hg =>
    cases h with
    | read hread => exact absurd hread Bool.false_ne_true
    | groupNameTaken => rfl
    | groupAdded hnew => exact absurd rfl (hnew _ hg)
  | roleName hr =>
    cases h with
    | read hread => exact absurd hread Bool.false_ne_true
    | roleNameTaken => rfl
    | roleAdded hnew => exact absurd rfl (hnew _ hr)
  | privilegeName hp =>
    cases h with
    | read hread => exact absurd hread Bool.false_ne_true
    | privilegeNameTaken => rfl
    | privilegeAdded hnew => exact absurd rfl (hnew _ hp)
  | @newRoleName row r update hrow hcustom hr hother hgiven =>
    have hname : ∀ old : RoleRow, (update.apply old).name = r.name := by
      intro old
      rw [RoleUpdate.apply, hgiven, Option.getD_some]
    cases h with
    | read hread => exact absurd hread Bool.false_ne_true
    | updatedRoleAbsent habsent => exact absurd rfl (habsent row hrow)
    | updatedRoleBuiltin hrow' hid hbuiltin =>
      rw [hs.roles.eq_of_id_eq hrow' hrow hid, hcustom] at hbuiltin
      exact absurd hbuiltin Bool.false_ne_true
    | newRoleNameTaken => rw [hname]
    | roleChanged _ _ _ hnew => exact absurd (hname _).symm (hnew r hr hother)
  | @newPrivilegeName row p update hrow hp hother hgiven =>
    have hname : ∀ old : Privilege, (update.apply old).name = p.name := by
      intro old
      rw [PrivilegeUpdate.apply, hgiven, Option.getD_some]
    cases h with
    | read hread => exact absurd hread Bool.false_ne_true
    | updatedPrivilegeAbsent habsent => exact absurd rfl (habsent row hrow)
    | newPrivilegeNameTaken => rw [hname]
    | privilegeChanged _ _ hnew => exact absurd (hname _).symm (hnew p hp hother)
  | @entry new a hgiven ha hpath hrole =>
    have hsubject : ∀ subject, new.subject? = some subject → subject = a.subject := by
      intro subject hsame
      rw [hgiven] at hsame
      exact (Option.some.inj hsame).symm
    cases h with
    | read hread => exact absurd hread Bool.false_ne_true
    | aceRoleAbsent habsent => exact absurd (hrole ▸ hs.ace_role a ha) habsent
    | aceSubjectWrong _ hwrong => exact absurd (hgiven.symm.trans hwrong) (by simp)
    | aceUserAbsent _ hsame habsent => exact absurd (hsubject _ hsame ▸ hs.ace_subject a ha) habsent
    | aceGroupAbsent _ hsame habsent => exact absurd (hsubject _ hsame ▸ hs.ace_subject a ha) habsent
    | aceTaken => rfl
    | aceAdded _ hsame _ hnew => exact absurd (by rw [Ace.key, hpath, hsubject _ hsame, hrole]) (hnew a ha)
  | @changedEntry row a update hrow ha hother hsubject hpath hrole =>
    cases h with
    | read hread => exact absurd hread Bool.false_ne_true
    | updatedAceAbsent habsent => exact absurd rfl (habsent row hrow)
    | newAceRoleAbsent _ _ hgiven habsent =>
      rw [hgiven, Option.getD_some] at hrole
      exact absurd (hrole ▸ hs.ace_role a ha) habsent
    | changedAceTaken hrow' hid =>
      rw [hs.aces.eq_of_id_eq hrow' hrow hid]
      rfl
    | aceChanged hrow' hid _ hnew =>
      rw [hs.aces.eq_of_id_eq hrow' hrow hid] at hnew
      exact absurd (by rw [Ace.key, hpath, hsubject, hrole]; rfl) (hnew a ha hother)

/-- A row that is in the way is sound, and so is the input that wants its place. -/
theorem Clash.input_sound (hs : s.Sound) (hclash : op.Clash s kind text) : op.fault? = none := by
  cases hclash with
  | username hu => simp [fault?, nameFault?, hs.users.keys_sound _ hu]
  | groupName hg => simp [fault?, nameFault?, hs.groups.keys_sound _ hg]
  | roleName hr => simp [fault?, nameFault?, hs.roles.keys_sound _ hr]
  | privilegeName hp => simp [fault?, privilegeNameFault?, hs.privileges.keys_sound _ hp]
  | newRoleName _ _ hr _ hgiven => simp [fault?, hgiven, nameFault?, hs.roles.keys_sound _ hr]
  | newPrivilegeName _ hp _ hgiven => simp [fault?, hgiven, privilegeNameFault?, hs.privileges.keys_sound _ hp]
  | @entry new a _ ha hpath _ =>
    have hsound : a.path.fault? = none := hs.aces.keys_sound a ha
    rw [fault?, ← hpath, hsound, Option.map_none]
  | @changedEntry row a update _ ha _ _ hpath _ =>
    have hsound : a.path.fault? = none := hs.aces.keys_sound a ha
    cases hgiven : update.path with
    | none => rw [fault?, hgiven, Option.bind_none]
    | some path =>
      rw [hgiven, Option.getD_some] at hpath
      rw [fault?, hgiven, Option.bind_some, ← hpath, hsound, Option.map_none]

end Operation

/-! ## Through the connection -/

namespace Engine

variable {e : Engine} {op : Operation}

/-- **Uniqueness, and conflicts exactly where it would be broken.**  In a reachable store no two rows share what is
unique.  An operation is answered with a conflict if and only if it reaches the tables and a row is in its way, and the
message names that row. -/
theorem conflict_iff_clash (hreachable : Reachable e.store) (now : Stamp) :
    e.store.Distinct ∧
    ∀ op kind text,
      ((e.run now op).1 = .error (.conflict kind text) ↔ e.connection = .free ∧ op.Clash e.store kind text) ∧
      (AccessError.conflict kind text).message = kind.word ++ " '" ++ text ++ "' already exists" := by
  have hsound := hreachable.sound
  refine ⟨hsound.distinct, fun op kind text => ⟨?_, rfl⟩⟩
  rcases e.run_cases now op with ⟨fault, hfault, hrun⟩ | ⟨-, error, hrefusal, hrun⟩ |
    ⟨-, hrefusal, answer, t, heffect, hrun⟩
  · rw [hrun]
    refine iff_of_false (by simp) fun hclash => ?_
    rw [hclash.2.input_sound hsound] at hfault
    exact absurd hfault (by simp)
  · rw [hrun]
    refine iff_of_false ?_ fun hclash => ?_
    · rcases refusal_eq_some hrefusal with ⟨limit, rfl⟩ | ⟨fault, rfl⟩ <;> simp
    · rw [refusal_eq_none_iff.mpr hclash.1] at hrefusal
      exact absurd hrefusal (by simp)
  · rw [hrun]
    constructor
    · rintro rfl
      exact ⟨refusal_eq_none_iff.mp hrefusal, heffect.clash hsound⟩
    · intro hclash
      exact congrArg Prod.fst (hclash.2.answered hsound heffect)

def twoRules : History :=
  [.createUser "ann", .createRole "operator" none,
    .createAce (.forUser (.ofString "/a") (.issue .user 1) (.issue .role 1)),
    .createAce (.forUser (.ofString "/b") (.issue .user 1) (.issue .role 1))].map fun op => (⟨""⟩, op)

/-- Moving one rule to the path of the other is a conflict that names the path; writing its own path again is none. -/
theorem conflict_iff_clash_moved :
    Reachable (Store.after {} twoRules) ∧
    (({ store := Store.after {} twoRules } : Engine).run ⟨"1"⟩
      (.updateAce (.issue .ace 2) { path := some (.ofString "/a") })).1 = .error (.conflict .ace "/a") ∧
    (({ store := Store.after {} twoRules } : Engine).run ⟨"1"⟩
      (.updateAce (.issue .ace 2) { path := some (.ofString "/b") })).1 = .ok (.ace ⟨.issue .ace 2, .ofString "/b",
        .user (.issue .user 1), .issue .role 1, true, true, ⟨""⟩, ⟨"1"⟩⟩) := by
  have hreachable : Reachable (Store.after {} twoRules) := Reachable.empty.after twoRules
  have hfirst : (⟨.issue .ace 1, .ofString "/a", .user (.issue .user 1), .issue .role 1, true, true, ⟨""⟩,
      ⟨""⟩⟩ : Ace) ∈ (Store.after {} twoRules).aces := by decide +kernel
  have hsecond : (⟨.issue .ace 2, .ofString "/b", .user (.issue .user 1), .issue .role 1, true, true, ⟨""⟩,
      ⟨""⟩⟩ : Ace) ∈ (Store.after {} twoRules).aces := by decide +kernel
  have hclash : Operation.Clash (Store.after {} twoRules)
      (.updateAce (.issue .ace 2) { path := some (.ofString "/a") }) .ace (Path.ofString "/a").text :=
    .changedEntry hsecond hfirst (by decide) rfl rfl rfl
  obtain ⟨-, hiff⟩ := conflict_iff_clash (e := { store := Store.after {} twoRules }) hreachable ⟨"1"⟩
  refine ⟨hreachable, (hiff _ _ _).1.mpr ⟨rfl, ?_⟩, by decide +kernel⟩
  rw [Path.text_ofString] at hclash
  exact hclash

end Engine

end ResourceAccess
