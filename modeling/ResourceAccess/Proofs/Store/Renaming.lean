import ResourceAccess.Proofs.Store.Relevant
import ResourceAccess.Proofs.Store.Update

/-!
# Renaming a privilege

Checks go by the name of a privilege, and roles hold privileges by their identifiers.  So when a privilege is given
another name, the roles that held it by the old name hold it by the new one, and whatever depends on which roles hold a
privilege goes along.  Names are unique, so nobody held anything by the new name before, and nobody holds anything by
the old name afterwards.

* `FollowsRenaming`: answers that depend on a name, before and after
* `FollowsRenaming.transport`: what depends on such answers follows the renaming, too
* `Store.explain_of_holders`: a check depends on the entries and on which roles hold the privilege
* `Operation.Effect.holders_follow`: the roles that hold a privilege follow its renaming
* `Engine.updatePrivilege_renames`: **so do all checks and all roles**
-/

namespace ResourceAccess

/-- What is asked by the new name is answered as it was by the old name.  What is asked by the old name is answered as
for a name that nobody bears, and so it was by the new name.  By any other name the answer is as before. -/
structure FollowsRenaming {α : Type} (old new : String) (free : α) (before after : String → α) : Prop where
  taken : after new = before old
  freed : after old = free
  unused : before new = free
  others : ∀ name, name ≠ old → name ≠ new → after name = before name

/-- What depends on answers that follow a renaming follows it, too. -/
theorem FollowsRenaming.transport {α β : Type} {old new : String} {free : α} {before after : String → α}
    (h : FollowsRenaming old new free before after) {free' : β} {before' after' : String → β}
    (hsame : ∀ m n, after m = before n → after' m = before' n)
    (hafter : ∀ n, after n = free → after' n = free') (hbefore : ∀ n, before n = free → before' n = free') :
    FollowsRenaming old new free' before' after' where
  taken := hsame _ _ h.taken
  freed := hafter _ h.freed
  unused := hbefore _ h.unused
  others name hold hnew := hsame _ _ (h.others name hold hnew)

namespace Store

variable {s t : Store} {user : Id} {path : Path}

def holders (s : Store) (privilege : String) : Set Id := {role | s.Holds role privilege}

/-- **Besides the entries, a check depends on which roles hold the privilege**, and not on how it is called. -/
theorem explain_of_holders {before after : String} (haces : t.aces = s.aces)
    (hholders : t.holders after = s.holders before) : t.explain user path after = s.explain user path before := by
  have hholds : ∀ role, t.Holds role after ↔ s.Holds role before := fun role => Set.ext_iff.mp hholders role
  refine Decision.ofRules_congr (Set.ext fun r => and_congr_left fun _ => ?_)
  rw [mem_candidates_iff, mem_candidates_iff, haces]
  refine exists_congr fun a => and_congr_right fun _ => and_congr_right fun _ => and_congr_right fun _ => ?_
  exact hholds a.role

theorem explain_of_no_holders {privilege : String} (hnone : s.holders privilege = ∅) :
    s.explain user path privilege = .noMatchingRule := by
  have hempty : s.candidates user privilege = [] := by
    rw [List.eq_nil_iff_forall_not_mem]
    intro r hr
    obtain ⟨a, -, -, -, hholds⟩ := mem_candidates_iff.mp hr
    have hmem : a.role ∈ s.holders privilege := hholds
    rw [hnone] at hmem
    exact hmem
  rw [explain, hempty, Decision.ofRules_eq_noMatchingRule_iff]
  intro level _
  rfl

theorem hasPrivilege_eq {row : RoleRow} {name : String} [Decidable (row.id ∈ s.holders name)] :
    (s.load row).hasPrivilege name = decide (row.id ∈ s.holders name) := by
  rw [Bool.eq_iff_iff, decide_eq_true_iff, Role.hasPrivilege, List.any_eq_true]
  constructor
  · rintro ⟨p, hp, hname⟩
    obtain ⟨hmem, hmember⟩ := mem_privilegesOf.mp hp
    exact ⟨_, hmember, rfl, p, hmem, rfl, beq_iff_eq.mp hname⟩
  · rintro ⟨⟨role, privilege⟩, hmember, hrole, p, hmem, hid, hname⟩
    obtain rfl : role = row.id := hrole
    obtain rfl : p.id = privilege := hid
    exact ⟨p, mem_privilegesOf.mpr ⟨hmem, hmember⟩, beq_iff_eq.mpr hname⟩

/-- When a row is given another name that no other row bears, the roles that hold it go with it. -/
theorem holders_follow (hs : s.Sound) {row changed : Privilege} (hrow : row ∈ s.privileges) (hid : changed.id = row.id)
    (hname : changed.name ≠ row.name) (hnew : ∀ p ∈ s.privileges, p.id ≠ row.id → p.name ≠ changed.name)
    (hmemberships : t.memberships = s.memberships)
    (hprivileges : t.privileges = s.privileges.map fun p => if p.id = row.id then changed else p) :
    FollowsRenaming row.name changed.name ∅ s.holders t.holders := by
  have hids : ∀ p ∈ s.privileges, (if p.id = row.id then changed else p).id = p.id := by
    intro p _
    by_cases hsame : p.id = row.id
    · rw [if_pos hsame, hid, hsame]
    · rw [if_neg hsame]
  -- the row has both names, one after the other, and no other row has any of them
  have hcases : ∀ p ∈ s.privileges, (p.name = row.name ∧ (if p.id = row.id then changed else p) = changed) ∨
      (p.name ≠ row.name ∧ p.name ≠ changed.name ∧ (if p.id = row.id then changed else p) = p) := by
    intro p hp
    by_cases hsame : p.id = row.id
    · exact Or.inl ⟨congrArg Privilege.name (hs.privileges.eq_of_id_eq hp hrow hsame), if_pos hsame⟩
    · refine Or.inr ⟨fun hold => ?_, hnew p hp hsame, if_neg hsame⟩
      exact hsame (congrArg Privilege.id (hs.privileges.eq_of_key_eq hp hrow hold))
  refine ⟨Set.ext (holds_map hmemberships hprivileges hids fun p hp => ?_), Set.eq_empty_iff_forall_notMem.mpr ?_,
    Set.eq_empty_iff_forall_notMem.mpr ?_,
    fun name hne hne' => Set.ext (holds_map hmemberships hprivileges hids fun p hp => ?_)⟩
  · rcases hcases p hp with ⟨hold, hp'⟩ | ⟨hold, hnew', hp'⟩
    · rw [hp']
      exact iff_of_true rfl hold
    · rw [hp']
      exact iff_of_false hnew' hold
  · rintro role ⟨m, -, -, q, hq, -, hcalled⟩
    rw [hprivileges] at hq
    obtain ⟨p, hp, rfl⟩ := List.mem_map.mp hq
    rcases hcases p hp with ⟨-, hp'⟩ | ⟨hold, -, hp'⟩
    · exact hname (hp' ▸ hcalled)
    · exact hold (hp' ▸ hcalled)
  · rintro role ⟨m, -, -, p, hp, -, hcalled⟩
    rcases hcases p hp with ⟨hold, -⟩ | ⟨-, hnew', -⟩
    · exact hname (hcalled.symm.trans hold)
    · exact hnew' hcalled
  · rcases hcases p hp with ⟨hold, hp'⟩ | ⟨-, -, hp'⟩
    · rw [hp', hold]
      exact iff_of_false (Ne.symm hne') (Ne.symm hne)
    · rw [hp']

end Store

/-! ## What an update does -/

namespace Operation.Effect

variable {now : Stamp} {s t : Store} {update : PrivilegeUpdate} {row renamed : Privilege}

/-- **The roles that hold a privilege follow its renaming**, while the roles and the entries are as they were. -/
theorem holders_follow (hs : s.Sound) (hrow : row ∈ s.privileges)
    (h : Effect now s (.updatePrivilege row.id update) (.ok (.privilege renamed), t)) (hname : renamed.name ≠ row.name) :
    t.roles = s.roles ∧ t.aces = s.aces ∧ FollowsRenaming row.name renamed.name ∅ s.holders t.holders := by
  cases h with
  | read hread => exact absurd hread Bool.false_ne_true
  | @privilegeChanged _ found _ hfound hid hnew =>
    obtain rfl := hs.privileges.eq_of_id_eq hfound hrow hid
    exact ⟨rfl, rfl, Store.holders_follow hs hrow rfl hname hnew rfl rfl⟩

end Operation.Effect

/-! ## What the engine answers -/

namespace Engine

variable {e e' : Engine}

/-- **All checks and all roles follow the renaming of a privilege.**  When an update gives a privilege another name,
every check by the new name is answered from then on as it was by the old one, a check by the old name finds no rule
any more, and by all other names the checks are answered as before.  The same roles are there, and what they are found
to have follows the renaming likewise. -/
theorem updatePrivilege_renames (h : Reachable e.store) {now : Stamp} {update : PrivilegeUpdate}
    {row renamed : Privilege} (hrow : row ∈ e.store.privileges)
    (hrun : e.run now (.updatePrivilege row.id update) = (.ok (.privilege renamed), e'))
    (hname : renamed.name ≠ row.name) (earlier later : Stamp) :
    (∀ user path, FollowsRenaming row.name renamed.name (.ok (.decision .noMatchingRule))
      (fun name => (e.run earlier (.explain user path name)).1)
      (fun name => (e'.run later (.explain user path name)).1)) ∧
    ∀ id, ((e.run earlier (.getRole id)).1 = .ok .absent ∧ (e'.run later (.getRole id)).1 = .ok .absent) ∨
      ∃ role role', (e.run earlier (.getRole id)).1 = .ok (.role role) ∧
        (e'.run later (.getRole id)).1 = .ok (.role role') ∧ role'.toRoleRow = role.toRoleRow ∧
        FollowsRenaming row.name renamed.name false role.hasPrivilege role'.hasPrivilege := by
  classical
  obtain ⟨-, hfree⟩ := free_of_answer (congrArg Prod.fst hrun)
  rcases e.run_effect now (.updatePrivilege row.id update) with ⟨error, herror⟩ | ⟨answer, t, heffect, hdone⟩
  · rw [herror] at hrun
    exact absurd (congrArg Prod.fst hrun) (by simp)
  · obtain ⟨rfl, rfl⟩ := Prod.mk.inj (hdone.symm.trans hrun)
    have hfree' : { e with store := t }.connection = .free := hfree
    obtain ⟨hroles, haces, hholders⟩ := heffect.holders_follow h.sound hrow hname
    refine ⟨fun user path => hholders.transport ?_ ?_ ?_, fun id => ?_⟩
    · intro m n hmn
      rw [run_explain hfree, run_explain hfree', Store.explain_of_holders haces hmn]
    · intro n hn
      rw [run_explain hfree', Store.explain_of_no_holders hn]
    · intro n hn
      rw [run_explain hfree, Store.explain_of_no_holders hn]
    · have hsame : t.roleRow? id = e.store.roleRow? id := by rw [Store.roleRow?, Store.roleRow?, hroles]
      rw [run_eq_perform hfree rfl, run_eq_perform hfree' rfl, Operation.perform, Operation.perform, Store.role?,
        Store.role?, hsame]
      cases e.store.roleRow? id with
      | none => exact Or.inl ⟨rfl, rfl⟩
      | some found =>
        refine Or.inr ⟨_, _, rfl, rfl, rfl, hholders.transport ?_ ?_ ?_⟩
        · intro m n hmn
          rw [Store.hasPrivilege_eq, Store.hasPrivilege_eq, hmn]
        · intro n hn
          rw [Store.hasPrivilege_eq, hn]
          simp
        · intro n hn
          rw [Store.hasPrivilege_eq, hn]
          simp

/-- What the operator is allowed by the name of his privilege, he is allowed by its next name and no more by the old
one, and his role has the privilege by the next name alone. -/
theorem updatePrivilege_renames_operator :
    ∃ e' : Engine, (({ store := Store.after {} operatorHistory } : Engine).run ⟨"2"⟩
        (.updatePrivilege (.issue .privilege 1) { name := some "Node.Shell" })).2 = e' ∧
      (e'.run ⟨"3"⟩ (.explain (.issue .user 1) (.ofString "/nodes/2") "Node.Shell")).1 =
        .ok (.decision (.allowed (.ofString "/nodes"))) ∧
      (e'.run ⟨"3"⟩ (.explain (.issue .user 1) (.ofString "/nodes/2") "Node.Console")).1 =
        .ok (.decision .noMatchingRule) ∧
      ∃ role, (e'.run ⟨"3"⟩ (.getRole (.issue .role 1))).1 = .ok (.role role) ∧
        role.hasPrivilege "Node.Shell" = true ∧ role.hasPrivilege "Node.Console" = false := by
  have hrow : (⟨.issue .privilege 1, "Node.Console", none, ⟨""⟩, ⟨""⟩⟩ : Privilege) ∈
      (Store.after {} operatorHistory).privileges := by decide +kernel
  have hanswer : (({ store := Store.after {} operatorHistory } : Engine).run ⟨"2"⟩
      (.updatePrivilege (.issue .privilege 1) { name := some "Node.Shell" })).1 =
        .ok (.privilege ⟨.issue .privilege 1, "Node.Shell", none, ⟨""⟩, ⟨"2"⟩⟩) := by decide +kernel
  have hallowed : (({ store := Store.after {} operatorHistory } : Engine).run ⟨"1"⟩
      (.explain (.issue .user 1) (.ofString "/nodes/2") "Node.Console")).1 =
        .ok (.decision (.allowed (.ofString "/nodes"))) := by decide +kernel
  have hholds : ∃ role, (({ store := Store.after {} operatorHistory } : Engine).run ⟨"1"⟩
      (.getRole (.issue .role 1))).1 = .ok (.role role) ∧ role.hasPrivilege "Node.Console" = true :=
    ⟨_, rfl, by decide +kernel⟩
  obtain ⟨hchecks, hroles⟩ := updatePrivilege_renames (e := { store := Store.after {} operatorHistory })
    (Reachable.empty.after operatorHistory) hrow (Prod.ext hanswer rfl) (by decide) ⟨"1"⟩ ⟨"3"⟩
  have hfollows := hchecks (.issue .user 1) (.ofString "/nodes/2")
  obtain ⟨held, hheld, hbefore⟩ := hholds
  refine ⟨_, rfl, hfollows.taken.trans hallowed, hfollows.freed, ?_⟩
  rcases hroles (.issue .role 1) with ⟨habsent, -⟩ | ⟨role, role', hrole, hrole', -, hhas⟩
  · rw [hheld] at habsent
    exact absurd habsent (by simp)
  · rw [hheld] at hrole
    obtain rfl := Answer.role.inj (Except.ok.inj hrole)
    exact ⟨role', hrole', hhas.taken.trans hbefore, hhas.freed⟩

end Engine

end ResourceAccess
