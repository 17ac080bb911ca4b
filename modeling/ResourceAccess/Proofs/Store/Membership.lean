import ResourceAccess.Proofs.Store.Lasting
import ResourceAccess.Proofs.Store.Seed

/-!
# Membership as a matter of history

A privilege comes to a role in two ways, by being added and by seeding, and leaves it in one, by being removed.  The
deletion of the role or of the privilege ends the membership too, but what is deleted does not come back.  So for a role
and a privilege that are there, the history tells whether they belong together: what happened last between them counts.

* `Operation.Attaches`, `Operation.Detaches`: the operations that bring a privilege and take it away
* `Operation.mem_memberships_run_iff`: what one operation makes of a membership
* `Store.mem_memberships_after_iff`: **a membership is there if it came about and was not ended since**
-/

namespace ResourceAccess

/-- The catalog gives the privilege to the role, both by name. -/
def Catalog.Grants (role privilege : String) : Prop :=
  ∃ c ∈ Catalog.roles, c.name = role ∧ c.coverage.covers privilege = true ∧ ∃ p ∈ Catalog.privileges, p.name = privilege

theorem Catalog.mem_memberships_iff {role privilege : String} :
    (role, privilege) ∈ Catalog.memberships ↔ Catalog.Grants role privilege := by
  simp only [memberships, Grants, List.mem_flatMap, List.mem_map, List.mem_filter, Prod.mk.injEq]
  constructor
  · rintro ⟨c, hc, p, ⟨hp, hcovers⟩, rfl, rfl⟩
    exact ⟨c, hc, rfl, hcovers, p, hp, rfl⟩
  · rintro ⟨c, hc, rfl, hcovers, p, hp, rfl⟩
    exact ⟨c, hc, p, ⟨hp, hcovers⟩, rfl, rfl⟩

/-! ## Histories -/

namespace History

/-- At this place of the history an operation is run that is such on the store that it meets. -/
def Occurs (history : History) (i : Nat) (P : Stamp → Store → Operation → Prop) : Prop :=
  ∃ now op, history[i]? = some (now, op) ∧ P now (Store.after {} (history.take i)) op

/-- Something has happened in the history, and since then something else has not. -/
def Since (history : History) (P Q : Stamp → Store → Operation → Prop) : Prop :=
  ∃ i, history.Occurs i P ∧ ∀ j, i < j → ¬ history.Occurs j Q

variable {history : History} {now : Stamp} {op : Operation} {P Q : Stamp → Store → Operation → Prop}

theorem Occurs.lt_length {i : Nat} (h : history.Occurs i P) : i < history.length := by
  obtain ⟨now, op, hentry, -⟩ := h
  exact (List.getElem?_eq_some_iff.mp hentry).1

theorem occurs_concat_of_lt {i : Nat} (hi : i < history.length) :
    Occurs (history ++ [(now, op)]) i P ↔ history.Occurs i P := by
  rw [Occurs, Occurs, List.getElem?_append_left hi, List.take_append_of_le_length (Nat.le_of_lt hi)]

theorem occurs_concat_length :
    Occurs (history ++ [(now, op)]) history.length P ↔ P now (Store.after {} history) op := by
  simp only [Occurs, List.getElem?_concat_length, List.take_left, Option.some.injEq, Prod.mk.injEq]
  constructor
  · rintro ⟨_, _, ⟨rfl, rfl⟩, h⟩
    exact h
  · intro h
    exact ⟨now, op, ⟨rfl, rfl⟩, h⟩

/-- With one more operation: it has happened just now, or it had happened and the other thing has not happened
now. -/
theorem since_concat_iff : Since (history ++ [(now, op)]) P Q ↔
    P now (Store.after {} history) op ∨ (history.Since P Q ∧ ¬ Q now (Store.after {} history) op) := by
  have hle : ∀ {i : Nat} {R : Stamp → Store → Operation → Prop}, Occurs (history ++ [(now, op)]) i R →
      i ≤ history.length := by
    intro i R h
    have hlt := h.lt_length
    rw [List.length_append, List.length_singleton] at hlt
    omega
  constructor
  · rintro ⟨i, hi, hnot⟩
    rcases Nat.lt_or_eq_of_le (hle hi) with hlt | rfl
    · refine Or.inr ⟨⟨i, (occurs_concat_of_lt hlt).mp hi, fun j hij hj => ?_⟩, fun hq => ?_⟩
      · exact hnot j hij ((occurs_concat_of_lt hj.lt_length).mpr hj)
      · exact hnot _ hlt (occurs_concat_length.mpr hq)
    · exact Or.inl (occurs_concat_length.mp hi)
  · rintro (hp | ⟨⟨i, hi, hnot⟩, hq⟩)
    · refine ⟨history.length, occurs_concat_length.mpr hp, fun j hij hj => ?_⟩
      have hlast := hle hj
      omega
    · refine ⟨i, (occurs_concat_of_lt hi.lt_length).mpr hi, fun j hij hj => ?_⟩
      rcases Nat.lt_or_eq_of_le (hle hj) with hlt | rfl
      · exact hnot j hij ((occurs_concat_of_lt hlt).mp hj)
      · exact hq (occurs_concat_length.mp hj)

theorem not_since_nil : ¬ Since [] P Q := by
  rintro ⟨i, hi, -⟩
  exact absurd hi.lt_length (Nat.not_lt_zero i)

end History

/-! ## One operation -/

namespace Operation

/-- The operation brings the privilege to the role: it adds it with success, or it seeds and the catalog gives the one
to the other by the names that they have then. -/
def Attaches (role privilege : Id) (now : Stamp) (s : Store) (op : Operation) : Prop :=
  (op = .addPrivilege role privilege ∧ ∃ answer, (op.run now s).1 = .ok answer) ∨
  (op = .seed ∧ ∃ r ∈ (s.seed now).roles, r.id = role ∧ ∃ p ∈ (s.seed now).privileges, p.id = privilege ∧
    Catalog.Grants r.name p.name)

/-- The operation takes the privilege from the role with success. -/
def Detaches (role privilege : Id) (now : Stamp) (s : Store) (op : Operation) : Prop :=
  op = .removePrivilege role privilege ∧ ∃ answer, (op.run now s).1 = .ok answer

variable {now : Stamp} {s : Store} {op : Operation} {role privilege : Id}

theorem mem_memberships_seed (hs : s.Sound) : Membership.mk role privilege ∈ (s.seed now).memberships ↔
    Operation.seed.Attaches role privilege now s ∨ Membership.mk role privilege ∈ s.memberships := by
  have hsound : (s.seed now).Sound := hs.changes Store.seed_changes
  have hnames : ∀ names : String × String, (s.seed now).Names ⟨role, privilege⟩ names ↔
      ∃ r ∈ (s.seed now).roles, r.id = role ∧ ∃ p ∈ (s.seed now).privileges, p.id = privilege ∧
        (r.name, p.name) = names := by
    rintro ⟨roleName, privilegeName⟩
    simp only [Store.Names, Store.roleRowNamed?, Store.privilegeNamed?, find_key_eq_some_iff hsound.roles.keys_nodup,
      find_key_eq_some_iff hsound.privileges.keys_nodup, Membership.mk.injEq, Prod.mk.injEq]
    constructor
    · rintro ⟨r, ⟨hr, rfl⟩, p, ⟨hp, rfl⟩, rfl, rfl⟩
      exact ⟨r, hr, rfl, p, hp, rfl, rfl, rfl⟩
    · rintro ⟨r, hr, rfl, p, hp, rfl, rfl, rfl⟩
      exact ⟨r, ⟨hr, rfl⟩, p, ⟨hp, rfl⟩, rfl, rfl⟩
  rw [Store.mem_memberships_seed_iff, or_comm]
  refine or_congr_left ?_
  simp only [Attaches, reduceCtorEq, false_and, false_or, true_and, hnames]
  constructor
  · rintro ⟨names, hcatalog, r, hr, hrole, p, hp, hprivilege, rfl⟩
    exact ⟨r, hr, hrole, p, hp, hprivilege, Catalog.mem_memberships_iff.mp hcatalog⟩
  · rintro ⟨r, hr, hrole, p, hp, hprivilege, hgrants⟩
    exact ⟨_, Catalog.mem_memberships_iff.mpr hgrants, r, hr, hrole, p, hp, hprivilege, rfl⟩

/-- An operation that neither adds nor removes nor seeds leaves the memberships of what it does not delete. -/
theorem Effect.mem_memberships_iff {reply : Reply} (h : Effect now s op reply) (hadd : ∀ r p, op ≠ .addPrivilege r p)
    (hremove : ∀ r p, op ≠ .removePrivilege r p) (hseed : op ≠ .seed)
    (hrole : role ∈ reply.2.roles.map (·.id)) (hprivilege : privilege ∈ reply.2.privileges.map (·.id)) :
    Membership.mk role privilege ∈ reply.2.memberships ↔ Membership.mk role privilege ∈ s.memberships := by
  have hstays : ∀ {α : Type} {id : α → Id} {rows : List α} {x target : Id},
      x ∈ (rows.filter (id · != target)).map id → x ≠ target := by
    intro α id rows x target hx
    obtain ⟨row, hrow, rfl⟩ := List.mem_map.mp hx
    simpa using (List.mem_filter.mp hrow).2
  cases h with
  | addingRoleAbsent | addedPrivilegeAbsent | alreadyAttached | attached => exact absurd rfl (hadd _ _)
  | removingRoleAbsent | notAttached | detached => exact absurd rfl (hremove _ _)
  | seeded => exact absurd rfl hseed
  | roleDeleted => simp [List.mem_filter, hstays hrole]
  | privilegeAbsent => simp [Store.deletePrivilege, List.mem_filter, hstays hprivilege]
  | privilegeDeleted => simp [Store.deletePrivilege, List.mem_filter, hstays hprivilege]
  | roleChanged _ _ _ _ ht =>
    subst ht
    rfl
  | _ => rfl

theorem mem_memberships_addPrivilege {reply : Reply} {r p : Id} (h : Effect now s (.addPrivilege r p) reply) :
    Membership.mk role privilege ∈ reply.2.memberships ↔
      (role = r ∧ privilege = p ∧ ∃ answer, reply.1 = .ok answer) ∨ Membership.mk role privilege ∈ s.memberships := by
  cases h with
  | read hread => exact absurd hread Bool.false_ne_true
  | addingRoleAbsent => simp
  | addedPrivilegeAbsent => simp
  | alreadyAttached _ _ _ hmember =>
    refine ⟨Or.inr, ?_⟩
    rintro (⟨rfl, rfl, -⟩ | hm)
    · exact hmember
    · exact hm
  | attached _ _ _ _ ht =>
    subst ht
    show Membership.mk role privilege ∈ (s.attach r p).memberships ↔ _
    simp [Store.mem_attach_iff, or_comm]

theorem mem_memberships_removePrivilege {reply : Reply} {r p : Id} (h : Effect now s (.removePrivilege r p) reply) :
    Membership.mk role privilege ∈ reply.2.memberships ↔ Membership.mk role privilege ∈ s.memberships ∧
      ¬ (role = r ∧ privilege = p ∧ ∃ answer, reply.1 = .ok answer) := by
  cases h with
  | read hread => exact absurd hread Bool.false_ne_true
  | removingRoleAbsent => simp
  | notAttached => simp
  | detached _ _ _ ht =>
    subst ht
    simp [Store.touchRole, List.mem_filter]

/-- **What one operation makes of a membership,** if the role and the privilege are there afterwards. -/
theorem mem_memberships_run_iff (hs : s.Sound) (hrole : role ∈ (op.run now s).2.roles.map (·.id))
    (hprivilege : privilege ∈ (op.run now s).2.privileges.map (·.id)) :
    Membership.mk role privilege ∈ (op.run now s).2.memberships ↔
      op.Attaches role privilege now s ∨
        (Membership.mk role privilege ∈ s.memberships ∧ ¬ op.Detaches role privilege now s) := by
  cases hfault : op.fault? with
  | some fault =>
    have hadd : op ≠ .addPrivilege role privilege := by
      rintro rfl
      exact absurd hfault (by simp [fault?])
    have hseed : op ≠ .seed := by
      rintro rfl
      exact absurd hfault (by simp [fault?])
    rw [run_of_fault hfault]
    simp [Attaches, Detaches, hadd, hseed, run_of_fault hfault]
  | none =>
    have heffect := op.perform_effect now s
    have hrun : op.run now s = op.perform now s := run_eq_perform hfault s
    rw [← hrun] at heffect
    by_cases hadd : ∃ r p, op = .addPrivilege r p
    · obtain ⟨r, p, rfl⟩ := hadd
      rw [mem_memberships_addPrivilege heffect]
      simp [Attaches, Detaches, and_assoc, eq_comm (a := role), eq_comm (a := privilege)]
    by_cases hremove : ∃ r p, op = .removePrivilege r p
    · obtain ⟨r, p, rfl⟩ := hremove
      rw [mem_memberships_removePrivilege heffect]
      simp [Attaches, Detaches, and_assoc, eq_comm (a := role), eq_comm (a := privilege)]
    by_cases hseed : op = .seed
    · subst hseed
      rw [run_seed, mem_memberships_seed hs]
      simp [Detaches]
    · -- all that is left can end the membership only by deleting the role or the privilege
      simp only [not_exists] at hadd hremove
      rw [heffect.mem_memberships_iff hadd hremove hseed hrole hprivilege]
      simp [Attaches, Detaches, hadd, hremove, hseed]

theorem Attaches.rows (hs : s.Sound) (h : op.Attaches role privilege now s) :
    role ∈ (op.run now s).2.roles.map (·.id) ∧ privilege ∈ (op.run now s).2.privileges.map (·.id) := by
  rcases h with ⟨rfl, answer, hok⟩ | ⟨rfl, r, hr, rfl, p, hp, rfl, -⟩
  · have hmember : Membership.mk role privilege ∈ ((addPrivilege role privilege).run now s).2.memberships := by
      rw [run_eq_perform rfl] at hok ⊢
      exact (mem_memberships_addPrivilege (perform_effect now _ s)).mpr (Or.inl ⟨rfl, rfl, answer, hok⟩)
    have hsound := hs.changes ((addPrivilege role privilege).run_changes now s)
    exact ⟨hsound.membership_role _ hmember, hsound.membership_privilege _ hmember⟩
  · rw [run_seed]
    exact ⟨List.mem_map_of_mem hr, List.mem_map_of_mem hp⟩

end Operation

/-! ## Whole histories -/

namespace Store

variable {role privilege : Id}

theorem issued_of_since {Q : Stamp → Store → Operation → Prop} (history : History)
    (h : history.Since (Operation.Attaches role privilege) Q) :
    role ∈ Id.issuedUpTo .role (after {} history).issued.roles ∧
      privilege ∈ Id.issuedUpTo .privilege (after {} history).issued.privileges := by
  induction history using List.reverseRecOn with
  | nil => exact absurd h History.not_since_nil
  | append_singleton history entry ih =>
    obtain ⟨now, op⟩ := entry
    have hnext : (after {} history).Precedes (op.run now (after {} history)).2 :=
      .of_changes (sound_after history) (op.run_changes now _)
    have hsound := sound_after (history ++ [(now, op)])
    rw [after_concat] at hsound ⊢
    rcases History.since_concat_iff.mp h with hattaches | ⟨hsince, -⟩
    · obtain ⟨hrole, hprivilege⟩ := hattaches.rows (sound_after history)
      exact ⟨hsound.roles.ids_sublist.subset hrole, hsound.privileges.ids_sublist.subset hprivilege⟩
    · exact ⟨Id.issuedUpTo_mono hnext.roles.issued_le (ih hsince).1,
        Id.issuedUpTo_mono hnext.privileges.issued_le (ih hsince).2⟩

/-- **A membership of what is there came about, and has not been ended since.** -/
theorem mem_memberships_after_iff (history : History) (hrole : role ∈ (after {} history).roles.map (·.id))
    (hprivilege : privilege ∈ (after {} history).privileges.map (·.id)) :
    Membership.mk role privilege ∈ (after {} history).memberships ↔
      history.Since (Operation.Attaches role privilege) (Operation.Detaches role privilege) := by
  induction history using List.reverseRecOn with
  | nil => exact absurd hrole List.not_mem_nil
  | append_singleton history entry ih =>
    obtain ⟨now, op⟩ := entry
    have hs := sound_after history
    have hnext : (after {} history).Precedes (op.run now (after {} history)).2 :=
      .of_changes hs (op.run_changes now _)
    rw [after_concat] at hrole hprivilege ⊢
    rw [Operation.mem_memberships_run_iff hs hrole hprivilege, History.since_concat_iff]
    refine or_congr_right (and_congr_left fun _ => ?_)
    constructor
    · intro hmember
      exact (ih (hs.membership_role _ hmember) (hs.membership_privilege _ hmember)).mp hmember
    · -- what had been brought together and is there now was there in between: nothing comes back
      intro hsince
      obtain ⟨hroleIssued, hprivilegeIssued⟩ := issued_of_since history hsince
      have hroleBefore : role ∈ (after {} history).roles.map (·.id) := by
        obtain ⟨new, hnew, rfl⟩ := List.mem_map.mp hrole
        obtain ⟨old, hold, hkept⟩ := hnext.roles.old new hnew hroleIssued
        exact hkept.id ▸ List.mem_map_of_mem hold
      have hprivilegeBefore : privilege ∈ (after {} history).privileges.map (·.id) := by
        obtain ⟨new, hnew, rfl⟩ := List.mem_map.mp hprivilege
        obtain ⟨old, hold, hkept⟩ := hnext.privileges.old new hnew hprivilegeIssued
        exact hkept.id ▸ List.mem_map_of_mem hold
      exact (ih hroleBefore hprivilegeBefore).mpr hsince

end Store

end ResourceAccess
