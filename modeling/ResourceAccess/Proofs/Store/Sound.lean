import ResourceAccess.Proofs.Store.Change
import ResourceAccess.Proofs.Store.Keyed

/-!
# What every reachable store satisfies

`Store.Sound` gathers what the tables promise: rows with identifiers and keys of their own, sound names and paths, and
references that lead to rows.  Each elementary change keeps it.

* `Store.Sound.change`: **an elementary change keeps a store sound**
* `Reachable.sound`: hence every reachable store is sound
-/

namespace ResourceAccess

namespace Store

structure Sound (s : Store) : Prop where
  users : Keyed .user User.id User.name (Text.isBlank · = false) s.issued.users s.users
  groups : Keyed .group Group.id Group.name (Text.isBlank · = false) s.issued.groups s.groups
  roles : Keyed .role RoleRow.id RoleRow.name (Text.isBlank · = false) s.issued.roles s.roles
  privileges : Keyed .privilege Privilege.id Privilege.name (PrivilegeName.isValid · = true)
    s.issued.privileges s.privileges
  aces : Keyed .ace Ace.id Ace.key (·.1.fault? = none) s.issued.aces s.aces
  memberships_nodup : s.memberships.Nodup
  membership_role : ∀ m ∈ s.memberships, m.role ∈ s.roles.map (·.id)
  membership_privilege : ∀ m ∈ s.memberships, m.privilege ∈ s.privileges.map (·.id)
  ace_role : ∀ a ∈ s.aces, a.role ∈ s.roles.map (·.id)
  ace_subject : ∀ a ∈ s.aces, a.subject ∈ s.subjects

theorem sound_empty : Sound {} where
  users := .empty
  groups := .empty
  roles := .empty
  privileges := .empty
  aces := .empty
  memberships_nodup := List.nodup_nil
  membership_role := fun _ h => absurd h (by simp)
  membership_privilege := fun _ h => absurd h (by simp)
  ace_role := fun _ h => absurd h (by simp)
  ace_subject := fun _ h => absurd h (by simp)

/-! ## References after a change -/

variable {now : Stamp} {s t : Store}

theorem touchRole_ids (s : Store) (now : Stamp) (id : Id) :
    (s.touchRole now id).roles.map (·.id) = s.roles.map (·.id) := by
  rw [touchRole, List.map_map]
  refine List.map_congr_left fun r _ => ?_
  by_cases hr : r.id = id
  · simp [hr]
  · simp [hr]

theorem mem_subjects_deleteUser {id : Id} {subject : Subject} (h : subject ∈ s.subjects) (hne : subject ≠ .user id) :
    subject ∈ (s.deleteUser id).2.subjects := by
  rcases List.mem_append.mp h with h | h
  · refine List.mem_append_left _ ?_
    obtain ⟨u, hu, rfl⟩ := List.mem_map.mp h
    exact List.mem_map_of_mem (List.mem_filter.mpr ⟨hu, by simpa using hne⟩)
  · exact List.mem_append_right _ h

theorem mem_subjects_deleteGroup {id : Id} {subject : Subject} (h : subject ∈ s.subjects)
    (hne : subject ≠ .group id) : subject ∈ (s.deleteGroup id).2.subjects := by
  rcases List.mem_append.mp h with h | h
  · exact List.mem_append_left _ h
  · refine List.mem_append_right _ ?_
    obtain ⟨g, hg, rfl⟩ := List.mem_map.mp h
    exact List.mem_map_of_mem (List.mem_filter.mpr ⟨hg, by simpa using hne⟩)

/-! ## Elementary changes -/

theorem Sound.attach (h : s.Sound) {role privilege : Id} (hrole : role ∈ s.roles.map (·.id))
    (hprivilege : privilege ∈ s.privileges.map (·.id)) : (s.attach role privilege).Sound := by
  unfold Store.attach
  split
  · exact h
  · rename_i hnew
    have hmem : ∀ m ∈ s.memberships ++ [⟨role, privilege⟩], m ∈ s.memberships ∨ m = ⟨role, privilege⟩ := by
      intro m hm
      simpa using hm
    refine { h with memberships_nodup := ?_, membership_role := ?_, membership_privilege := ?_ }
    · refine List.nodup_append.mpr ⟨h.memberships_nodup, List.nodup_singleton _, ?_⟩
      intro m hm m' hm' heq
      rw [List.mem_singleton.mp hm'] at heq
      exact hnew (List.contains_iff_mem.mpr (heq ▸ hm))
    · intro m hm
      rcases hmem m hm with hm | rfl
      · exact h.membership_role m hm
      · exact hrole
    · intro m hm
      rcases hmem m hm with hm | rfl
      · exact h.membership_privilege m hm
      · exact hprivilege

/-- **An elementary change keeps a store sound.** -/
theorem Sound.change (h : s.Sound) (hchange : Change now s t) : t.Sound := by
  cases hchange with
  | addUser name hname hnew =>
    refine { h with users := h.users.append rfl hname hnew, ace_subject := fun a ha => ?_ }
    simpa [subjects, or_assoc, or_left_comm] using Or.inr (h.ace_subject a ha)
  | removeUser id =>
    refine { h with
      users := h.users.filter _
      aces := h.aces.filter _
      ace_role := fun a ha => h.ace_role a (List.mem_of_mem_filter ha)
      ace_subject := fun a ha => ?_ }
    have hne : a.subject ≠ .user id := by simpa using (List.mem_filter.mp ha).2
    exact mem_subjects_deleteUser (h.ace_subject a (List.mem_of_mem_filter ha)) hne
  | addGroup name hname hnew =>
    refine { h with groups := h.groups.append rfl hname hnew, ace_subject := fun a ha => ?_ }
    simpa [subjects, or_assoc] using Or.inl (h.ace_subject a ha)
  | removeGroup id =>
    refine { h with
      groups := h.groups.filter _
      aces := h.aces.filter _
      ace_role := fun a ha => h.ace_role a (List.mem_of_mem_filter ha)
      ace_subject := fun a ha => ?_ }
    have hne : a.subject ≠ .group id := by simpa using (List.mem_filter.mp ha).2
    exact mem_subjects_deleteGroup (h.ace_subject a (List.mem_of_mem_filter ha)) hne
  | addRole name description builtin hname hnew =>
    have hgrow : ∀ x ∈ s.roles.map (·.id), x ∈ (s.insertRole now name description builtin).2.roles.map (·.id) := by
      intro x hx
      rw [insertRole, List.map_append]
      exact List.mem_append_left _ hx
    exact { h with
      roles := h.roles.append rfl hname hnew
      membership_role := fun m hm => hgrow _ (h.membership_role m hm)
      ace_role := fun a ha => hgrow _ (h.ace_role a ha) }
  | changeRole row name description hrow hcustom hname hnew =>
    have hids : (s.roles.map fun r => if r.id = row.id then { row with name, description, updated := now } else r).map
        (·.id) = s.roles.map (·.id) := map_id_replace rfl
    have hsound : Text.isBlank name = false := by
      rcases hname with rfl | hname
      · exact h.roles.keys_sound row hrow
      · exact hname
    exact { h with
      roles := h.roles.replace rfl hsound hnew
      membership_role := fun m hm => hids ▸ h.membership_role m hm
      ace_role := fun a ha => hids ▸ h.ace_role a ha }
  | touchRole id =>
    have hids := touchRole_ids s now id
    refine { h with
      roles := h.roles.map (fun r => ?_) (fun r => ?_)
      membership_role := fun m hm => hids ▸ h.membership_role m hm
      ace_role := fun a ha => hids ▸ h.ace_role a ha }
    · split <;> rfl
    · split <;> rfl
  | removeRole row hrow hcustom =>
    refine { h with
      roles := h.roles.filter _
      aces := h.aces.filter _
      memberships_nodup := h.memberships_nodup.filter _
      membership_role := fun m hm => ?_
      membership_privilege := fun m hm => h.membership_privilege m (List.mem_of_mem_filter hm)
      ace_role := fun a ha => ?_
      ace_subject := fun a ha => h.ace_subject a (List.mem_of_mem_filter ha) }
    · have hne : m.role ≠ row.id := by simpa using (List.mem_filter.mp hm).2
      exact mem_ids_filter (h.membership_role m (List.mem_of_mem_filter hm)) hne
    · have hne : a.role ≠ row.id := by simpa using (List.mem_filter.mp ha).2
      exact mem_ids_filter (h.ace_role a (List.mem_of_mem_filter ha)) hne
  | addPrivilege name description hname hnew =>
    refine { h with
      privileges := h.privileges.append rfl hname hnew
      membership_privilege := fun m hm => ?_ }
    rw [insertPrivilege, List.map_append]
    exact List.mem_append_left _ (h.membership_privilege m hm)
  | changePrivilege row name description hrow hname hnew =>
    have hids : (s.privileges.map fun p =>
        if p.id = row.id then { row with name, description, updated := now } else p).map (·.id) =
          s.privileges.map (·.id) := map_id_replace rfl
    have hsound : PrivilegeName.isValid name = true := by
      rcases hname with rfl | hname
      · exact h.privileges.keys_sound row hrow
      · exact hname
    exact { h with
      privileges := h.privileges.replace rfl hsound hnew
      membership_privilege := fun m hm => hids ▸ h.membership_privilege m hm }
  | removePrivilege id =>
    refine { h with
      privileges := h.privileges.filter _
      memberships_nodup := h.memberships_nodup.filter _
      membership_role := fun m hm => h.membership_role m (List.mem_of_mem_filter hm)
      membership_privilege := fun m hm => ?_ }
    have hne : m.privilege ≠ id := by simpa using (List.mem_filter.mp hm).2
    exact mem_ids_filter (h.membership_privilege m (List.mem_of_mem_filter hm)) hne
  | attach role privilege hrole hprivilege => exact h.attach hrole hprivilege
  | detach role privilege =>
    exact { h with
      memberships_nodup := h.memberships_nodup.filter _
      membership_role := fun m hm => h.membership_role m (List.mem_of_mem_filter hm)
      membership_privilege := fun m hm => h.membership_privilege m (List.mem_of_mem_filter hm) }
  | addAce path subject role allowed propagates hpath hrole hsubject hnew =>
    refine { h with
      aces := h.aces.append rfl hpath hnew
      ace_role := fun a ha => ?_
      ace_subject := fun a ha => ?_ }
    · rcases List.mem_append.mp ha with ha | ha
      · exact h.ace_role a ha
      · rw [List.mem_singleton.mp ha]
        exact hrole
    · rcases List.mem_append.mp ha with ha | ha
      · exact h.ace_subject a ha
      · rw [List.mem_singleton.mp ha]
        exact hsubject
  | changeAce row path role allowed propagates hrow hpath hrole hnew =>
    have hsound : path.fault? = none := by
      rcases hpath with rfl | hpath
      · exact h.aces.keys_sound row hrow
      · exact hpath
    refine { h with
      aces := h.aces.replace rfl hsound hnew
      ace_role := fun a ha => ?_
      ace_subject := fun a ha => ?_ }
    · obtain ⟨old, hold, rfl⟩ := List.mem_map.mp ha
      split
      · rcases hrole with rfl | hrole
        · exact h.ace_role row hrow
        · exact hrole
      · exact h.ace_role old hold
    · obtain ⟨old, hold, rfl⟩ := List.mem_map.mp ha
      split
      · exact h.ace_subject row hrow
      · exact h.ace_subject old hold
  | removeAces keep =>
    exact { h with
      aces := h.aces.filter _
      ace_role := fun a ha => h.ace_role a (List.mem_of_mem_filter ha)
      ace_subject := fun a ha => h.ace_subject a (List.mem_of_mem_filter ha) }

end Store

/-- **Every reachable store is sound.** -/
theorem Reachable.sound {s : Store} (h : Reachable s) : s.Sound :=
  h.of_changes Store.sound_empty fun _ _ _ hchange hs => hs.change hchange

theorem Store.sound_after (history : History) : (after {} history).Sound := (Reachable.empty.after history).sound

end ResourceAccess
