import ResourceAccess.Proofs.Session.Trace
import ResourceAccess.Proofs.Store.Membership
import ResourceAccess.Proofs.Store.Views

/-!
# The privileges of a role, as they are read

What a role's privileges are is a matter of the history of the tables, however the tables came about: by operations, by
requests to a session, or by command lines.  Adding and removing a privilege tell exactly what was missing, and change
the one membership and the stamp of the one role.

* `Engine.MembershipRules`: what adding and removing answer and do
* `Session.membership_of_history`: **the privileges of a role are a set determined by history**
-/

namespace ResourceAccess

variable {now : Stamp} {s : Store} {role privilege : Id}

/-! ## Adding and removing -/

namespace Store

/-- The role that was re-stamped is read as it is then. -/
theorem Sound.role_touched {t : Store} (ht : t.Sound) {row : RoleRow} (hrow : row ∈ s.roles)
    (hroles : t.roles = (s.touchRole now row.id).roles) :
    t.role? row.id = some (t.load { row with updated := now }) := by
  have hmem : { row with updated := now } ∈ t.roles := by
    rw [hroles]
    exact List.mem_map.mpr ⟨row, hrow, if_pos rfl⟩
  exact ht.role_eq_some hmem

end Store

namespace Operation.Effect

variable {row : RoleRow} {reply : Reply}

theorem addPrivilege_role_absent (habsent : role ∉ s.roles.map (·.id))
    (h : Effect now s (.addPrivilege role privilege) reply) : reply = (.error (.notFound .role role), s) := by
  cases h with
  | read hread => exact absurd hread Bool.false_ne_true
  | addingRoleAbsent => rfl
  | addedPrivilegeAbsent hrole => exact absurd hrole habsent
  | alreadyAttached hrow hid => exact absurd (List.mem_map.mpr ⟨_, hrow, hid⟩) habsent
  | attached hrow hid => exact absurd (List.mem_map.mpr ⟨_, hrow, hid⟩) habsent

theorem addPrivilege_privilege_absent (hrow : row ∈ s.roles) (habsent : privilege ∉ s.privileges.map (·.id))
    (h : Effect now s (.addPrivilege row.id privilege) reply) :
    reply = (.error (.notFound .privilege privilege), s) := by
  cases h with
  | read hread => exact absurd hread Bool.false_ne_true
  | addingRoleAbsent hnone => exact absurd rfl (hnone row hrow)
  | addedPrivilegeAbsent => rfl
  | alreadyAttached _ _ hprivilege => exact absurd hprivilege habsent
  | attached _ _ hprivilege => exact absurd hprivilege habsent

theorem addPrivilege_again (hs : s.Sound) (hrow : row ∈ s.roles)
    (hmember : Membership.mk row.id privilege ∈ s.memberships)
    (h : Effect now s (.addPrivilege row.id privilege) reply) : reply = (.ok (.role (s.load row)), s) := by
  cases h with
  | read hread => exact absurd hread Bool.false_ne_true
  | addingRoleAbsent hnone => exact absurd rfl (hnone row hrow)
  | addedPrivilegeAbsent _ habsent =>
    obtain ⟨p, hp, hid⟩ := List.mem_map.mp (hs.membership_privilege _ hmember)
    exact absurd hid (habsent p hp)
  | alreadyAttached hrow' hid => rw [hs.roles.eq_of_id_eq hrow' hrow hid]
  | attached _ _ _ hnew => exact absurd hmember hnew

theorem addPrivilege_anew (hs : s.Sound) (hrow : row ∈ s.roles) (hprivilege : privilege ∈ s.privileges.map (·.id))
    (hnew : Membership.mk row.id privilege ∉ s.memberships) {t : Store}
    (ht : t = (s.attach row.id privilege).touchRole now row.id)
    (h : Effect now s (.addPrivilege row.id privilege) reply) :
    reply = (.ok (.role (t.load { row with updated := now })), t) := by
  cases h with
  | read hread => exact absurd hread Bool.false_ne_true
  | addingRoleAbsent hnone => exact absurd rfl (hnone row hrow)
  | addedPrivilegeAbsent _ habsent =>
    obtain ⟨p, hp, hid⟩ := List.mem_map.mp hprivilege
    exact absurd hid (habsent p hp)
  | alreadyAttached _ _ _ hmember => exact absurd hmember hnew
  | attached hrow' hid _ _ ht' => rw [hs.roles.eq_of_id_eq hrow' hrow hid, ht', ← ht]

theorem removePrivilege_role_absent (habsent : role ∉ s.roles.map (·.id))
    (h : Effect now s (.removePrivilege role privilege) reply) : reply = (.error (.notFound .role role), s) := by
  cases h with
  | read hread => exact absurd hread Bool.false_ne_true
  | removingRoleAbsent => rfl
  | notAttached hrole => exact absurd hrole habsent
  | detached hrow hid => exact absurd (List.mem_map.mpr ⟨_, hrow, hid⟩) habsent

theorem removePrivilege_unattached (hrow : row ∈ s.roles) (hnone : Membership.mk row.id privilege ∉ s.memberships)
    (h : Effect now s (.removePrivilege row.id privilege) reply) :
    reply = (.error (.notMember privilege row.id), s) := by
  cases h with
  | read hread => exact absurd hread Bool.false_ne_true
  | removingRoleAbsent habsent => exact absurd rfl (habsent row hrow)
  | notAttached => rfl
  | detached _ _ hmember => exact absurd hmember hnone

theorem removePrivilege_attached (hs : s.Sound) (hrow : row ∈ s.roles)
    (hmember : Membership.mk row.id privilege ∈ s.memberships) {t : Store}
    (ht : t = { s with
      memberships := s.memberships.filter (· != Membership.mk row.id privilege) }.touchRole now row.id)
    (h : Effect now s (.removePrivilege row.id privilege) reply) :
    reply = (.ok (.role (t.load { row with updated := now })), t) := by
  cases h with
  | read hread => exact absurd hread Bool.false_ne_true
  | removingRoleAbsent habsent => exact absurd rfl (habsent row hrow)
  | notAttached _ hnone => exact absurd hmember hnone
  | detached hrow' hid _ ht' => rw [hs.roles.eq_of_id_eq hrow' hrow hid, ht', ← ht]

end Operation.Effect

namespace Engine

/-- What adding a privilege to a role and removing it answer, and what they do.  Whoever succeeds is told the role as it
is read then. -/
structure MembershipRules (e : Engine) (now : Stamp) (role privilege : Id) : Prop where
  adding_role_absent : role ∉ e.store.roles.map (·.id) →
    e.run now (.addPrivilege role privilege) = (.error (.notFound .role role), e)
  adding_privilege_absent : role ∈ e.store.roles.map (·.id) → privilege ∉ e.store.privileges.map (·.id) →
    e.run now (.addPrivilege role privilege) = (.error (.notFound .privilege privilege), e)
  adding_again : e.store.Attached role privilege →
    ∃ r, e.store.role? role = some r ∧ e.run now (.addPrivilege role privilege) = (.ok (.role r), e)
  adding_anew : role ∈ e.store.roles.map (·.id) → privilege ∈ e.store.privileges.map (·.id) →
    ¬ e.store.Attached role privilege →
    ∃ r t, t.role? role = some r ∧ e.run now (.addPrivilege role privilege) = (.ok (.role r), { e with store := t }) ∧
      t = { e.store with
        memberships := e.store.memberships ++ [⟨role, privilege⟩]
        roles := e.store.roles.map fun r => if r.id = role then { r with updated := now } else r }
  removing_role_absent : role ∉ e.store.roles.map (·.id) →
    e.run now (.removePrivilege role privilege) = (.error (.notFound .role role), e)
  removing_unattached : role ∈ e.store.roles.map (·.id) → ¬ e.store.Attached role privilege →
    e.run now (.removePrivilege role privilege) = (.error (.notMember privilege role), e)
  removing_attached : e.store.Attached role privilege →
    ∃ r t, t.role? role = some r ∧
      e.run now (.removePrivilege role privilege) = (.ok (.role r), { e with store := t }) ∧
      t = { e.store with
        memberships := e.store.memberships.filter (· != ⟨role, privilege⟩)
        roles := e.store.roles.map fun r => if r.id = role then { r with updated := now } else r }

variable {e : Engine}

theorem membershipRules_of_reachable (h : Reachable e.store) (hfree : e.connection = .free) (now : Stamp)
    (role privilege : Id) : e.MembershipRules now role privilege := by
  have hs := h.sound
  have hadded := (run_reachable h now (.addPrivilege role privilege)).sound
  have hremoved := (run_reachable h now (.removePrivilege role privilege)).sound
  constructor
  case adding_role_absent =>
    intro habsent
    exact run_of_effect hfree rfl fun _ heffect => heffect.addPrivilege_role_absent habsent
  case adding_privilege_absent =>
    intro hrole habsent
    obtain ⟨row, hrow, rfl⟩ := List.mem_map.mp hrole
    exact run_of_effect hfree rfl fun _ heffect => heffect.addPrivilege_privilege_absent hrow habsent
  case adding_again =>
    intro hattached
    have hmember := hs.attached_iff.mp hattached
    obtain ⟨row, hrow, rfl⟩ := List.mem_map.mp (hs.membership_role _ hmember)
    exact ⟨_, hs.role_eq_some hrow, run_of_effect hfree rfl fun _ heffect => heffect.addPrivilege_again hs hrow hmember⟩
  case adding_anew =>
    intro hrole hprivilege hattached
    have hnew := mt hs.attached_iff.mpr hattached
    obtain ⟨row, hrow, rfl⟩ := List.mem_map.mp hrole
    have hrun := run_of_effect hfree rfl fun _ (heffect : Operation.Effect now e.store _ _) =>
      heffect.addPrivilege_anew hs hrow hprivilege hnew rfl
    rw [hrun, Store.attach_of_not_mem hnew] at hadded
    rw [Store.attach_of_not_mem hnew] at hrun
    exact ⟨_, _, hadded.role_touched hrow rfl, hrun, rfl⟩
  case removing_role_absent =>
    intro habsent
    exact run_of_effect hfree rfl fun _ heffect => heffect.removePrivilege_role_absent habsent
  case removing_unattached =>
    intro hrole hattached
    have hnone := mt hs.attached_iff.mpr hattached
    obtain ⟨row, hrow, rfl⟩ := List.mem_map.mp hrole
    exact run_of_effect hfree rfl fun _ heffect => heffect.removePrivilege_unattached hrow hnone
  case removing_attached =>
    intro hattached
    have hmember := hs.attached_iff.mp hattached
    obtain ⟨row, hrow, rfl⟩ := List.mem_map.mp (hs.membership_role _ hmember)
    have hrun := run_of_effect hfree rfl fun _ (heffect : Operation.Effect now e.store _ _) =>
      heffect.removePrivilege_attached hs hrow hmember rfl
    rw [hrun] at hremoved
    exact ⟨_, _, hremoved.role_touched hrow rfl, hrun, rfl⟩

/-! ### Who is told what -/

namespace MembershipRules

variable (h : e.MembershipRules now role privilege)
include h

theorem added_iff : (∃ answer, (e.run now (.addPrivilege role privilege)).1 = .ok answer) ↔
    role ∈ e.store.roles.map (·.id) ∧ privilege ∈ e.store.privileges.map (·.id) := by
  by_cases hrole : role ∈ e.store.roles.map (·.id)
  · by_cases hprivilege : privilege ∈ e.store.privileges.map (·.id)
    · refine iff_of_true ?_ ⟨hrole, hprivilege⟩
      by_cases hattached : e.store.Attached role privilege
      · obtain ⟨r, -, hrun⟩ := h.adding_again hattached
        exact ⟨_, congrArg Prod.fst hrun⟩
      · obtain ⟨r, t, -, hrun, -⟩ := h.adding_anew hrole hprivilege hattached
        exact ⟨_, congrArg Prod.fst hrun⟩
    · simp [h.adding_privilege_absent hrole hprivilege, hprivilege]
  · simp [h.adding_role_absent hrole, hrole]

theorem removing_notFound_iff :
    (∃ kind id, (e.run now (.removePrivilege role privilege)).1 = .error (.notFound kind id)) ↔
      role ∉ e.store.roles.map (·.id) := by
  by_cases hrole : role ∈ e.store.roles.map (·.id)
  · refine iff_of_false ?_ (not_not_intro hrole)
    by_cases hattached : e.store.Attached role privilege
    · obtain ⟨r, t, -, hrun, -⟩ := h.removing_attached hattached
      simp [hrun]
    · simp [h.removing_unattached hrole hattached]
  · exact iff_of_true ⟨_, _, congrArg Prod.fst (h.removing_role_absent hrole)⟩ hrole

theorem removing_notMember_iff :
    (∃ p r, (e.run now (.removePrivilege role privilege)).1 = .error (.notMember p r)) ↔
      role ∈ e.store.roles.map (·.id) ∧ ¬ e.store.Attached role privilege := by
  by_cases hattached : e.store.Attached role privilege
  · refine iff_of_false ?_ fun hnot => hnot.2 hattached
    obtain ⟨r, t, -, hrun, -⟩ := h.removing_attached hattached
    simp [hrun]
  · by_cases hrole : role ∈ e.store.roles.map (·.id)
    · exact iff_of_true ⟨_, _, congrArg Prod.fst (h.removing_unattached hrole hattached)⟩ ⟨hrole, hattached⟩
    · simp [h.removing_role_absent hrole, hrole]

end MembershipRules

end Engine

/-! ## Sessions -/

namespace Session

/-- **The privileges of a role are a set determined by history.**  A privilege that is there belongs to a role that is
there exactly if it was brought to it, by adding or seeding, and has not been removed since; and whatever happens to a
session, its tables are where such a history leads.  On a free connection adding and removing go by their rules. -/
theorem membership_of_history :
    (∀ (history : History) (role privilege : Id), role ∈ (Store.after {} history).roles.map (·.id) →
      privilege ∈ (Store.after {} history).privileges.map (·.id) →
      ((Store.after {} history).Attached role privilege ↔
        history.Since (Operation.Attaches role privilege) (Operation.Detaches role privilege))) ∧
    (∀ start, New start → ∀ events, (start.through events).engine.store = Store.after {} (start.trace events)) ∧
    ∀ e : Engine, Reachable e.store → e.connection = .free → ∀ now role privilege,
      e.MembershipRules now role privilege ∧
      ((∃ answer, (e.run now (.addPrivilege role privilege)).1 = .ok answer) ↔
        role ∈ e.store.roles.map (·.id) ∧ privilege ∈ e.store.privileges.map (·.id)) ∧
      ((∃ kind id, (e.run now (.removePrivilege role privilege)).1 = .error (.notFound kind id)) ↔
        role ∉ e.store.roles.map (·.id)) ∧
      ((∃ p r, (e.run now (.removePrivilege role privilege)).1 = .error (.notMember p r)) ↔
        role ∈ e.store.roles.map (·.id) ∧ ¬ e.store.Attached role privilege) := by
  refine ⟨?_, ?_, ?_⟩
  · intro history role privilege hrole hprivilege
    rw [(Store.sound_after history).attached_iff]
    exact Store.mem_memberships_after_iff history hrole hprivilege
  · intro start hnew events
    rw [through_store hnew.reached, hnew.store]
  · intro e h hfree now role privilege
    have hrules := Engine.membershipRules_of_reachable h hfree now role privilege
    exact ⟨hrules, hrules.added_iff, hrules.removing_notFound_iff, hrules.removing_notMember_iff⟩

def rejoined : History :=
  [(⟨"1"⟩, .createRole "operator" none), (⟨"2"⟩, .createPrivilege "Node.Console" none),
    (⟨"3"⟩, .addPrivilege (.issue .role 1) (.issue .privilege 1)),
    (⟨"4"⟩, .removePrivilege (.issue .role 1) (.issue .privilege 1)),
    (⟨"5"⟩, .addPrivilege (.issue .role 1) (.issue .privilege 1))]

/-- The role has it then, and adding it once more does nothing. -/
theorem membership_of_history_rejoined :
    (Store.after {} rejoined).Attached (.issue .role 1) (.issue .privilege 1) ∧
    (({ store := Store.after {} rejoined } : Engine).run ⟨"6"⟩
      (.addPrivilege (.issue .role 1) (.issue .privilege 1))).2 = { store := Store.after {} rejoined } := by
  obtain ⟨hhistory, -, hrules⟩ := membership_of_history
  have hattached : (Store.after {} rejoined).Attached (.issue .role 1) (.issue .privilege 1) := by
    refine (hhistory rejoined _ _ (by decide +kernel) (by decide +kernel)).mpr ⟨4, ?_, ?_⟩
    · exact ⟨⟨"5"⟩, .addPrivilege (.issue .role 1) (.issue .privilege 1), rfl, Or.inl ⟨rfl, _, rfl⟩⟩
    · intro j hj hoccurs
      have hlt : j < 5 := hoccurs.lt_length
      omega
  have hreachable : Reachable (Store.after {} rejoined) := Reachable.empty.after rejoined
  obtain ⟨r, -, hrun⟩ := (hrules { store := Store.after {} rejoined } hreachable rfl ⟨"6"⟩ (.issue .role 1)
    (.issue .privilege 1)).1.adding_again hattached
  exact ⟨hattached, congrArg Prod.snd hrun⟩

end Session

end ResourceAccess
