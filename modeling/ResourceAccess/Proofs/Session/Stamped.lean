import ResourceAccess.Proofs.Session.Views
import ResourceAccess.Proofs.Store.TopUp

/-!
# Whether a role's stamp tells of its privileges

A role is stamped where its own row is written.  Its privileges are rows of another table, so adding and removing one
write two rows, the membership and the stamp.  Whoever compares stamps then learns of every such change.  Seeding is
different on purpose: it tops memberships up, but leaves the rows of roles that are there as they are.

* `Store.RestampsRegrouped`: roles whose privileges have changed bear the stamp of the change
* `Store.KeepsRoleRows`: roles that were there are as they were, stamps included
* `Operation.Effect.restamps_row`: the one case analysis, over everything that an operation can do
* `Session.occur_cases`: an event does one operation at most, unless it sets up a new store
* `Session.regrouping_restamps`: **the first of them holds of all events but two, and the second of seeding**
-/

namespace ResourceAccess

/-- Both are read with the same privileges, whatever these are called. -/
def Role.SamePrivileges (r r' : Role) : Prop := ∀ p, p ∈ r'.privileges.map (·.id) ↔ p ∈ r.privileges.map (·.id)

namespace Store

/-- A role that is in both stores, but not with the same privileges, bears the stamp in the second one. -/
def RestampsRegrouped (now : Stamp) (s t : Store) : Prop :=
  ∀ role before after, s.role? role = some before → t.role? role = some after → ¬ before.SamePrivileges after →
    after.updated = now

/-- A role that is in the first store is in the second one, with the same row. -/
def KeepsRoleRows (s t : Store) : Prop :=
  ∀ role before, s.role? role = some before → ∃ after, t.role? role = some after ∧ after.toRoleRow = before.toRoleRow

variable {now : Stamp} {s t : Store}

theorem RestampsRegrouped.refl (now : Stamp) (s : Store) : s.RestampsRegrouped now s := by
  intro role before after hbefore hafter hdiffer
  obtain rfl := Option.some.inj (hbefore.symm.trans hafter)
  exact absurd (fun _ => Iff.rfl) hdiffer

theorem KeepsRoleRows.refl (s : Store) : s.KeepsRoleRows s := fun _ before h => ⟨before, h, rfl⟩

theorem restampsRegrouped_of_empty (h : s = {}) : s.RestampsRegrouped now t := by
  rintro role before after hbefore
  rw [h] at hbefore
  exact absurd hbefore (by simp [role?, roleRow?])

theorem Sound.mem_privileges_iff (hs : s.Sound) {role privilege : Id} {r : Role} (hr : s.role? role = some r) :
    privilege ∈ r.privileges.map (·.id) ↔ Membership.mk role privilege ∈ s.memberships := by
  rw [← hs.attached_iff, Attached, hr]
  simp

theorem mem_touchRole {id : Id} {row : RoleRow} (h : row ∈ (s.touchRole now id).roles) (hid : row.id = id) :
    row.updated = now := by
  obtain ⟨old, -, rfl⟩ := List.mem_map.mp h
  by_cases hold : old.id = id
  · rw [if_pos hold]
  · rw [if_neg hold] at hid
    exact absurd hid hold

/-- Where roles are only added, those that were there keep their rows. -/
theorem GainsCatalog.keepsRoleRows (h : s.GainsCatalog now t) (ht : t.Sound) : s.KeepsRoleRows t := by
  intro role before hbefore
  obtain ⟨row, hrow, rfl⟩ := Option.map_eq_some_iff.mp hbefore
  obtain ⟨hmem, rfl⟩ := roleRow_eq_some hrow
  exact ⟨_, ht.role_eq_some (h.mem_roles hmem), rfl⟩

theorem seed_keepsRoleRows (hs : s.Sound) (now : Stamp) : s.KeepsRoleRows (s.seed now) :=
  (gainsCatalog_seed hs now).keepsRoleRows (hs.changes seed_changes)

end Store

/-! ## One operation -/

namespace Operation

variable {now : Stamp} {s : Store} {op : Operation}

/-- A role one of whose memberships has come or gone was re-stamped, if nothing was seeded and no privilege deleted. -/
theorem Effect.restamps_row {reply : Reply} (h : Effect now s op reply) (hseed : op ≠ .seed)
    (hdelete : ∀ p, op ≠ .deletePrivilege p) {row : RoleRow} (hrow : row ∈ reply.2.roles) {privilege : Id}
    (hdiffers : ¬ (Membership.mk row.id privilege ∈ reply.2.memberships ↔
      Membership.mk row.id privilege ∈ s.memberships)) : row.updated = now := by
  cases h with
  | seeded => exact absurd rfl hseed
  | privilegeAbsent | privilegeDeleted => exact absurd rfl (hdelete _)
  | @attached role p _ t hold hid _ _ ht =>
    subst ht
    by_cases hrole : row.id = role
    · exact Store.mem_touchRole hrow hrole
    · have hother : Membership.mk row.id privilege ∈ (s.attach role p).memberships ↔
          Membership.mk row.id privilege ∈ s.memberships := by simp [Store.mem_attach_iff, hrole]
      exact absurd hother hdiffers
  | @detached role p _ t hold hid _ ht =>
    subst ht
    by_cases hrole : row.id = role
    · exact Store.mem_touchRole hrow hrole
    · have hother : Membership.mk row.id privilege ∈ s.memberships.filter (· != Membership.mk role p) ↔
          Membership.mk row.id privilege ∈ s.memberships := by simp [List.mem_filter, hrole]
      exact absurd hother hdiffers
  | @roleDeleted role =>
    -- the memberships that go are those of the role that goes
    have hother : row.id ≠ role := by simpa using (List.mem_filter.mp hrow).2
    exact absurd (by simp [List.mem_filter, hother]) hdiffers
  | roleChanged _ _ _ _ ht =>
    subst ht
    exact absurd Iff.rfl hdiffers
  | _ => exact absurd Iff.rfl hdiffers

theorem run_restampsRegrouped (hs : s.Sound) (now : Stamp) (hseed : op ≠ .seed)
    (hdelete : ∀ p, op ≠ .deletePrivilege p) : s.RestampsRegrouped now (op.run now s).2 := by
  cases hfault : op.fault? with
  | some fault =>
    rw [run_of_fault hfault]
    exact .refl now s
  | none =>
    have ht : (op.run now s).2.Sound := hs.changes (op.run_changes now s)
    have heffect : Effect now s op (op.run now s) := by
      rw [run_eq_perform hfault]
      exact op.perform_effect now s
    intro role before after hbefore hafter hdiffer
    obtain ⟨p, hp⟩ := not_forall.mp hdiffer
    rw [ht.mem_privileges_iff hafter, hs.mem_privileges_iff hbefore] at hp
    obtain ⟨row, hrow, rfl⟩ := Option.map_eq_some_iff.mp hafter
    obtain ⟨hmem, rfl⟩ := Store.roleRow_eq_some hrow
    exact heffect.restamps_row hseed hdelete hmem hp

theorem run_seed_keepsRoleRows (hs : s.Sound) (now : Stamp) : s.KeepsRoleRows (seed.run now s).2 := by
  simp only [run_seed]
  exact Store.seed_keepsRoleRows hs now

end Operation

/-! ## Events -/

theorem Pace.mem_work {pace : Pace} {now : Stamp} {op done : Operation} {s : Store} (h : done ∈ pace.work now op s) :
    done = op := by
  unfold work at h
  split at h
  · exact absurd h List.not_mem_nil
  · exact List.mem_singleton.mp h

namespace Command

variable {now : Stamp} {s : Store} {op : Operation} {pace : Pace}

theorem mem_membershipWork {f : Id → Id → Operation} {role privilege : String}
    (h : op ∈ membershipWork now f role privilege s pace) : ∃ r p, op = f r p := by
  unfold membershipWork at h
  split at h
  · exact ⟨_, _, Pace.mem_work h⟩
  · exact absurd h List.not_mem_nil

/-- No command seeds, and none deletes a privilege. -/
theorem mem_work {command : Command} (h : op ∈ command.work now s pace) :
    op ≠ .seed ∧ ∀ p, op ≠ .deletePrivilege p := by
  cases command with
  | grant role privilege =>
    obtain ⟨r, p, rfl⟩ := mem_membershipWork h
    simp
  | revoke role privilege =>
    obtain ⟨r, p, rfl⟩ := mem_membershipWork h
    simp
  | purge top =>
    obtain rfl := Pace.mem_work h
    simp
  | _ => exact absurd h List.not_mem_nil

end Command

namespace Session

variable {now : Stamp} {s : Session}

/-- An event leaves the tables alone, or does one operation on them, or sets up a new store.  Seeding and the deletion
of a privilege are only done on request. -/
theorem occur_cases (h : Reached s) (now : Stamp) (event : Event) :
    (s.occur now event).engine.store = s.engine.store ∨ s.engine.store = {} ∨
    ∃ op, (s.occur now event).engine.store = (op.run now s.engine.store).2 ∧
      (event = .request (.operation op) ∨ (op ≠ .seed ∧ ∀ p, op ≠ .deletePrivilege p)) := by
  rw [occur_store h]
  cases event with
  | request request =>
    cases request with
    | operation op =>
      rw [work]
      split
      · exact Or.inr (Or.inr ⟨op, rfl, Or.inl rfl⟩)
      · exact Or.inl rfl
    | setUp administrator =>
      rw [work]
      split
      · rename_i hnew
        cases hfile : s.file with
        | none =>
          rw [hfile] at hnew
          exact absurd hnew (by simp)
        | some file =>
          have habsent : file.present = false := by simpa [hfile] using hnew
          exact Or.inr (Or.inl (h.new_of_absent hfile habsent).store)
      · exact Or.inl rfl
    | _ => exact Or.inl rfl
  | invocation surroundings arguments =>
    rw [work]
    split
    · exact Or.inl rfl
    · rename_i plan _
      split
      · have hlength := plan.command.work_length now s.engine.store { limit := plan.limit, expiry := surroundings.expiry }
        cases hwork : plan.command.work now s.engine.store { limit := plan.limit, expiry := surroundings.expiry } with
        | nil => exact Or.inl rfl
        | cons op rest =>
          obtain rfl : rest = [] := by simpa [hwork] using hlength
          have hop : op ∈ plan.command.work now s.engine.store
              { limit := plan.limit, expiry := surroundings.expiry } := by simp [hwork]
          exact Or.inr (Or.inr ⟨op, rfl, Or.inr (Command.mem_work hop)⟩)
      · exact Or.inl rfl

/-- **The stamp of a role tells of every change of its privileges.**  Whatever is done to a store that operations lead
to, and whatever happens to a session, apart from seeding and from deleting a privilege, a role that then has other
privileges than before bears the stamp of that moment.  Seeding leaves the row of every role as it was. -/
theorem regrouping_restamps :
    (∀ s : Store, Reachable s → ∀ now,
      (∀ op : Operation, op ≠ .seed → (∀ p, op ≠ .deletePrivilege p) → s.RestampsRegrouped now (op.run now s).2) ∧
      s.KeepsRoleRows (Operation.seed.run now s).2) ∧
    ∀ s : Session, Reached s → ∀ now,
      (∀ event, event ≠ .request (.operation .seed) → (∀ p, event ≠ .request (.operation (.deletePrivilege p))) →
        s.engine.store.RestampsRegrouped now (s.occur now event).engine.store) ∧
      s.engine.store.KeepsRoleRows (s.occur now (.request (.operation .seed))).engine.store := by
  refine ⟨fun s h now => ⟨fun op hseed hdelete => ?_, ?_⟩, fun s h now => ⟨fun event hseed hdelete => ?_, ?_⟩⟩
  · exact Operation.run_restampsRegrouped h.sound now hseed hdelete
  · exact Operation.run_seed_keepsRoleRows h.sound now
  · rcases occur_cases h now event with hsame | hempty | ⟨op, hstore, hop⟩
    · rw [hsame]
      exact .refl now _
    · exact Store.restampsRegrouped_of_empty hempty
    · have hother : op ≠ .seed ∧ ∀ p, op ≠ .deletePrivilege p := by
        rcases hop with rfl | hother
        · exact ⟨fun heq => hseed (heq ▸ rfl), fun p heq => hdelete p (heq ▸ rfl)⟩
        · exact hother
      rw [hstore]
      exact Operation.run_restampsRegrouped h.store.sound now hother.1 hother.2
  · rw [occur_store h, work]
    split
    · exact Operation.run_seed_keepsRoleRows h.store.sound now
    · exact .refl _

def staffed : Session :=
  (onFile "rules" none).through (asking [(⟨"1"⟩, .createRole "operator" none),
    (⟨"2"⟩, .createPrivilege "Node.Console" none), (⟨"3"⟩, .addPrivilege (.issue .role 1) (.issue .privilege 1))])

def revoking : Event :=
  .invocation { environment := [("RBACD_DATABASE__PATH", "rules")] }
    ["revoke", "--role", "operator", "--privilege", "Node.Console"]

/-- It is stamped then. -/
theorem regrouping_restamps_staffed :
    (∃ before, staffed.engine.store.role? (.issue .role 1) = some before ∧ before.updated = ⟨"3"⟩) ∧
    ∃ after, (staffed.occur ⟨"4"⟩ revoking).engine.store.role? (.issue .role 1) = some after ∧
      after.updated = ⟨"4"⟩ := by
  have hreached : Reached staffed := (Reached.onFile "rules" none).through _
  have hbefore : staffed.engine.store.role? (.issue .role 1) =
      some ⟨⟨.issue .role 1, "operator", none, false, ⟨"1"⟩, ⟨"3"⟩⟩,
        [⟨.issue .privilege 1, "Node.Console", none, ⟨"2"⟩, ⟨"2"⟩⟩]⟩ := by decide +kernel
  obtain ⟨after, hafter, hnone⟩ : ∃ after,
      (staffed.occur ⟨"4"⟩ revoking).engine.store.role? (.issue .role 1) = some after ∧ after.privileges = [] :=
    ⟨⟨⟨.issue .role 1, "operator", none, false, ⟨"1"⟩, ⟨"4"⟩⟩, []⟩, by decide +kernel, rfl⟩
  refine ⟨⟨_, hbefore, rfl⟩, after, hafter, ?_⟩
  refine (regrouping_restamps.2 staffed hreached ⟨"4"⟩).1 revoking (by simp [revoking]) (by simp [revoking]) _ _ _
    hbefore hafter fun hsame => ?_
  have hlost := (hsame (.issue .privilege 1)).mpr (by simp)
  rw [hnone] at hlost
  exact absurd hlost List.not_mem_nil

/-- Two changes of a role's privileges that its stamp does not tell of: seeding gives what the catalog gives to a role
of that name, and deleting a privilege takes it from the roles that had it. -/
theorem regrouping_unstamped :
    Reachable (Store.after {} Engine.ownAuditor) ∧
    ¬ (Store.after {} Engine.ownAuditor).RestampsRegrouped ⟨"2"⟩
      (Operation.seed.run ⟨"2"⟩ (Store.after {} Engine.ownAuditor)).2 ∧
    ¬ (Store.after {} Engine.ownAuditor).RestampsRegrouped ⟨"2"⟩
      ((Operation.deletePrivilege (.issue .privilege 1)).run ⟨"2"⟩ (Store.after {} Engine.ownAuditor)).2 := by
  have hreachable : Reachable (Store.after {} Engine.ownAuditor) := Reachable.empty.after _
  have hbefore : (Store.after {} Engine.ownAuditor).role? (.issue .role 1) =
      some ⟨⟨.issue .role 1, "Auditor", some "Reads the lab books", false, ⟨"1"⟩, ⟨"1"⟩⟩,
        [⟨.issue .privilege 1, "Lab.Audit", none, ⟨"1"⟩, ⟨"1"⟩⟩]⟩ := by decide +kernel
  refine ⟨hreachable, fun hseed => ?_, fun hdelete => ?_⟩
  · have hkeeps := Operation.run_seed_keepsRoleRows hreachable.sound ⟨"2"⟩
    have hsound := (hreachable.step ⟨"2"⟩ .seed).sound
    have hgains := Store.gainsCatalog_seed hreachable.sound ⟨"2"⟩
    simp only [Operation.run_seed] at hseed hkeeps hsound
    obtain ⟨t, ht⟩ : ∃ t, (Store.after {} Engine.ownAuditor).seed ⟨"2"⟩ = t := ⟨_, rfl⟩
    rw [ht] at hseed hkeeps hsound hgains
    obtain ⟨after, hafter, hrow⟩ := hkeeps _ _ hbefore
    have hauditor : (⟨.issue .role 1, "Auditor", some "Reads the lab books", false, ⟨"1"⟩, ⟨"1"⟩⟩ : RoleRow) ∈
        (Store.after {} Engine.ownAuditor).roles := by decide +kernel
    have hnode : (⟨.issue .privilege 2, "Node.Audit", none, ⟨"1"⟩, ⟨"1"⟩⟩ : Privilege) ∈
        (Store.after {} Engine.ownAuditor).privileges := by decide +kernel
    have hgained : Id.issue .privilege 2 ∈ after.privileges.map (·.id) :=
      (hsound.mem_privileges_iff hafter).mpr (hgains.mem_memberships hauditor hnode (by decide +kernel))
    have hstamp : after.updated = ⟨"1"⟩ := congrArg (·.updated) hrow
    refine absurd (hseed _ _ _ hbefore hafter fun hsame => ?_) (by rw [hstamp]; decide)
    exact absurd ((hsame _).mp hgained) (by decide +kernel)
  · have hafter : ((Operation.deletePrivilege (.issue .privilege 1)).run ⟨"2"⟩
        (Store.after {} Engine.ownAuditor)).2.role? (.issue .role 1) =
        some ⟨⟨.issue .role 1, "Auditor", some "Reads the lab books", false, ⟨"1"⟩, ⟨"1"⟩⟩, []⟩ := by decide +kernel
    refine absurd (hdelete _ _ _ hbefore hafter fun hsame => ?_) (by decide)
    exact absurd ((hsame (.issue .privilege 1)).mpr (by simp)) List.not_mem_nil

end Session

end ResourceAccess
