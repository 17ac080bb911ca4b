import ResourceAccess.Engine
import ResourceAccess.Proofs.Decision.MostSpecific
import ResourceAccess.Proofs.Store.Sound

/-!
# A check agrees with what is listed

A check joins entries, memberships and privileges by the name of the privilege.  An administrator reads the entries and
the roles, each with its privileges.  In a sound store the join gives each entry at most once, and exactly for the roles
that are read to hold the privilege.

* `Store.grants_iff`: a role holds a privilege by name when the one membership of the two is there
* `Store.candidates_perm`: the candidates are the rules that the lists show
* `Engine.check_agrees`: **so checks answer as the lists say**
-/

namespace ResourceAccess

namespace Store

variable {s : Store} {user role : Id} {privilege : String}

/-- Whether the role, as it is read, holds the privilege. -/
def grants (s : Store) (role : Id) (privilege : String) : Bool := (s.role? role).any (·.hasPrivilege privilege)

/-- The rules that the lists show for a user and a privilege: those of the user's own entries whose role, as it is
read, holds the privilege. -/
def shownRules (s : Store) (user : Id) (privilege : String) : List Rule :=
  (s.aceList.filter fun a => a.subject == .user user && s.grants a.role privilege).map Ace.rule

/-! ## The join -/

theorem roleRow_isSome (h : role ∈ s.roles.map (·.id)) : ∃ row, s.roleRow? role = some row ∧ row.id = role := by
  obtain ⟨r, hr, hid⟩ := List.mem_map.mp h
  have hsome : (s.roleRow? role).isSome := List.find?_isSome.mpr ⟨r, hr, by simpa using hid⟩
  obtain ⟨row, hrow⟩ := Option.isSome_iff_exists.mp hsome
  exact ⟨row, hrow, (roleRow_eq_some hrow).2⟩

theorem privilegeNamed_eq_some {p : Privilege} (h : s.privilegeNamed? privilege = some p) :
    p ∈ s.privileges ∧ p.name = privilege := find_key_eq_some h

theorem mem_privilegesOf {p : Privilege} :
    p ∈ s.privilegesOf role ↔ p ∈ s.privileges ∧ Membership.mk role p.id ∈ s.memberships := by
  rw [privilegesOf, (sortedBy_perm _ _).mem_iff, List.mem_filter, List.contains_iff_mem]

/-- Names are unique, so holding a privilege by name is one membership. -/
theorem grants_iff (h : s.Sound) : s.grants role privilege = true ↔
    ∃ p, s.privilegeNamed? privilege = some p ∧ Membership.mk role p.id ∈ s.memberships := by
  constructor
  · intro hgrants
    obtain ⟨r, hr, hholds⟩ : ∃ r, s.role? role = some r ∧ r.hasPrivilege privilege = true := by
      simpa [grants, Option.any_eq_true] using hgrants
    obtain ⟨row, hrow, rfl⟩ := Option.map_eq_some_iff.mp hr
    obtain ⟨-, rfl⟩ := roleRow_eq_some hrow
    obtain ⟨p, hp, hname⟩ := List.any_eq_true.mp hholds
    obtain ⟨hmem, hmember⟩ := mem_privilegesOf.mp hp
    have hsome : (s.privilegeNamed? privilege).isSome := List.find?_isSome.mpr ⟨p, hmem, hname⟩
    obtain ⟨q, hq⟩ := Option.isSome_iff_exists.mp hsome
    obtain ⟨hqmem, hqname⟩ := privilegeNamed_eq_some hq
    have hpq : p = q := h.privileges.eq_of_key_eq hmem hqmem ((beq_iff_eq.mp hname).trans hqname.symm)
    exact ⟨q, hq, hpq ▸ hmember⟩
  · rintro ⟨p, hp, hmember⟩
    obtain ⟨hmem, hname⟩ := privilegeNamed_eq_some hp
    obtain ⟨row, hrow, rfl⟩ := roleRow_isSome (h.membership_role _ hmember)
    have hattached : p ∈ s.privilegesOf row.id := mem_privilegesOf.mpr ⟨hmem, hmember⟩
    have hholds : (s.load row).hasPrivilege privilege = true :=
      List.any_eq_true.mpr ⟨p, hattached, beq_iff_eq.mpr hname⟩
    simp [grants, role?, hrow, hholds]

/-- The candidates are the rules of the user's entries whose role is joined to the privilege. -/
theorem mem_candidates_iff {r : Rule} : r ∈ s.candidates user privilege ↔
    ∃ a ∈ s.aces, a.subject = .user user ∧ a.rule = r ∧
      ∃ m ∈ s.memberships, m.role = a.role ∧ ∃ q ∈ s.privileges, q.id = m.privilege ∧ q.name = privilege := by
  rw [candidates, (sorted_perm _).mem_iff, rulesFor]
  simp only [List.mem_flatMap, List.mem_filter, List.mem_map, beq_iff_eq, Bool.and_eq_true]
  constructor
  · rintro ⟨a, ⟨ha, hsubject⟩, m, ⟨hm, hrole⟩, q, ⟨hq, hid, hname⟩, hrule⟩
    exact ⟨a, ha, hsubject, hrule, m, hm, hrole, q, hq, hid, hname⟩
  · rintro ⟨a, ha, hsubject, hrule, m, hm, hrole, q, hq, hid, hname⟩
    exact ⟨a, ⟨ha, hsubject⟩, m, ⟨hm, hrole⟩, q, ⟨hq, hid, hname⟩, hrule⟩

/-- A part of a join that gives each row at most once is a filter. -/
theorem flatMap_ite_singleton {α β : Type} (p : α → Bool) (f : α → β) (rows : List α) :
    (rows.flatMap fun a => if p a then [f a] else []) = (rows.filter p).map f := by
  induction rows with
  | nil => rfl
  | cons a rest ih =>
    rw [List.flatMap_cons, ih]
    by_cases ha : p a = true
    · simp [ha]
    · simp [ha]

/-- The join gives a rule once if the role holds the privilege, and not at all otherwise. -/
theorem join_eq (h : s.Sound) (role : Id) (privilege : String) (rule : Rule) :
    ((s.memberships.filter (·.role == role)).flatMap fun m =>
      (s.privileges.filter fun p => p.id == m.privilege && p.name == privilege).map fun _ => rule) =
      if s.grants role privilege then [rule] else [] := by
  have hnamed : ∀ m : Membership, (s.privileges.filter fun p => p.id == m.privilege && p.name == privilege) =
      (s.privilegeNamed? privilege).toList.filter (·.id == m.privilege) := by
    intro m
    rw [privilegeNamed?, ← filter_key_eq_toList h.privileges.keys_nodup, List.filter_filter]
  cases hp : s.privilegeNamed? privilege with
  | none =>
    have hnot : s.grants role privilege = false := by
      rw [Bool.eq_false_iff]
      intro hgrants
      obtain ⟨p, hsome, -⟩ := (grants_iff h).mp hgrants
      rw [hp] at hsome
      exact absurd hsome (by simp)
    simp [hnamed, hp, hnot]
  | some p =>
    have hrow : ∀ m : Membership, (s.privileges.filter fun p => p.id == m.privilege && p.name == privilege).map
        (fun _ => rule) = if p.id == m.privilege then [rule] else [] := by
      intro m
      rw [hnamed, hp]
      by_cases hm : p.id = m.privilege
      · simp [hm]
      · simp [hm]
    -- the memberships that are left are the one of the role and this privilege, as often as it is there
    have hone : (s.memberships.filter (·.role == role)).filter (p.id == ·.privilege) =
        List.replicate (s.memberships.count ⟨role, p.id⟩) ⟨role, p.id⟩ := by
      rw [List.filter_filter, ← List.filter_beq]
      refine List.filter_congr fun m _ => ?_
      rw [Bool.eq_iff_iff, Bool.and_eq_true, beq_iff_eq, beq_iff_eq, beq_iff_eq]
      constructor
      · rintro ⟨hprivilege, hrole⟩
        rw [hprivilege, ← hrole]
      · rintro rfl
        exact ⟨rfl, rfl⟩
    rw [List.flatMap_congr fun m _ => hrow m, flatMap_ite_singleton, hone, List.map_replicate,
      h.memberships_nodup.count]
    by_cases hmember : Membership.mk role p.id ∈ s.memberships
    · rw [if_pos hmember, if_pos ((grants_iff h).mpr ⟨p, hp, hmember⟩), List.replicate_one]
    · have hnot : ¬ s.grants role privilege = true := by
        intro hgrants
        obtain ⟨q, hq, hmem⟩ := (grants_iff h).mp hgrants
        rw [hp, Option.some.injEq] at hq
        exact hmember (hq ▸ hmem)
      rw [if_neg hmember, if_neg hnot, List.replicate_zero]

theorem rulesFor_eq (h : s.Sound) (user : Id) (privilege : String) : s.rulesFor user privilege =
    (s.aces.filter fun a => a.subject == .user user && s.grants a.role privilege).map Ace.rule := by
  rw [rulesFor, List.flatMap_congr fun a _ => join_eq h a.role privilege a.rule, flatMap_ite_singleton,
    List.filter_filter]
  simp only [Bool.and_comm]

/-- **The candidates are the rules that the lists show**, each as often as it is shown. -/
theorem candidates_perm (h : s.Sound) (user : Id) (privilege : String) :
    (s.candidates user privilege).Perm (s.shownRules user privilege) := by
  have hlist : s.aces.Perm s.aceList := (sorted_perm _).symm
  rw [candidates, shownRules]
  refine (sorted_perm _).trans ?_
  rw [rulesFor_eq h]
  exact (hlist.filter _).map _

/-! ## The order of the candidates -/

theorem text_injective {p q : Path} (h : p.text = q.text) : p = q := by
  rw [← Path.ofString_text p, h, Path.ofString_text]

theorem precedes_of_path_eq {a b : Rule} (h : a.path = b.path) :
    a.precedes b = if a.allowed = b.allowed then a.propagates || !b.propagates else a.allowed := if_pos h

theorem precedes_iff_of_path_ne {a b : Rule} (h : a.path ≠ b.path) :
    a.precedes b = true ↔ b.path.text ≤ a.path.text := by
  rw [Rule.precedes, if_neg h, decide_eq_true_iff]

theorem text_le_of_precedes {a b : Rule} (h : a.precedes b = true) : b.path.text ≤ a.path.text := by
  by_cases hpath : a.path = b.path
  · exact hpath ▸ String.le_refl _
  · exact (precedes_iff_of_path_ne hpath).mp h

theorem precedes_trans (a b c : Rule) (hab : a.precedes b = true) (hbc : b.precedes c = true) :
    a.precedes c = true := by
  have hle : c.path.text ≤ a.path.text := String.le_trans (text_le_of_precedes hbc) (text_le_of_precedes hab)
  by_cases hac : a.path = c.path
  · -- between two rules at one path there is no other path
    have hba : a.path = b.path := by
      refine text_injective (String.le_antisymm ?_ (text_le_of_precedes hab))
      rw [hac]
      exact text_le_of_precedes hbc
    rw [precedes_of_path_eq hba] at hab
    rw [precedes_of_path_eq (hba.symm.trans hac)] at hbc
    rw [precedes_of_path_eq hac]
    have hflags : ∀ x y z u v w : Bool, (if x = y then u || !v else x) = true → (if y = z then v || !w else y) = true →
        (if x = z then u || !w else x) = true := by decide
    exact hflags _ _ _ _ _ _ hab hbc
  · exact (precedes_iff_of_path_ne hac).mpr hle

theorem precedes_total (a b : Rule) : a.precedes b = true ∨ b.precedes a = true := by
  by_cases hpath : a.path = b.path
  · rw [precedes_of_path_eq hpath, precedes_of_path_eq hpath.symm]
    have hflags : ∀ x y u v : Bool, (if x = y then u || !v else x) = true ∨ (if y = x then v || !u else y) = true := by
      decide
    exact hflags _ _ _ _
  · rw [precedes_iff_of_path_ne hpath, precedes_iff_of_path_ne (Ne.symm hpath)]
    exact String.le_total _ _

theorem candidates_pairwise (s : Store) (user : Id) (privilege : String) :
    (s.candidates user privilege).Pairwise fun a b => b.path.text ≤ a.path.text :=
  (sorted_pairwise precedes_trans precedes_total _).imp text_le_of_precedes

/-! ## The decision -/

theorem explain_eq (h : s.Sound) (user : Id) (path : Path) (privilege : String) :
    s.explain user path privilege = .ofRules (s.shownRules user privilege) path := by
  refine Decision.ofRules_congr (Set.ext fun r => ?_)
  exact and_congr_left fun _ => (candidates_perm h user privilege).mem_iff

/-- A user without a row has no entries, and a name that no privilege bears is held by no role. -/
theorem shownRules_eq_nil (h : s.Sound) (hunknown : s.user? user = none ∨ s.privilegeNamed? privilege = none) :
    s.shownRules user privilege = [] := by
  have hnone : ∀ a ∈ s.aceList, a.subject = .user user → s.grants a.role privilege = false := by
    intro a ha hsubject
    rcases hunknown with huser | hprivilege
    · have hmem := h.ace_subject a (mem_sorted.mp ha)
      have hrow : ∃ u ∈ s.users, u.id = user := by simpa [subjects, hsubject] using hmem
      obtain ⟨u, hu, hid⟩ := hrow
      exact absurd (beq_iff_eq.mpr hid) (List.find?_eq_none.mp huser u hu)
    · rw [Bool.eq_false_iff]
      intro hgrants
      obtain ⟨p, hp, -⟩ := (grants_iff h).mp hgrants
      rw [hprivilege] at hp
      exact absurd hp (by simp)
  rw [shownRules, List.map_eq_nil_iff, List.filter_eq_nil_iff]
  intro a ha hboth
  obtain ⟨hsubject, hgrants⟩ := Bool.and_eq_true_iff.mp hboth
  rw [hnone a ha (beq_iff_eq.mp hsubject)] at hgrants
  exact absurd hgrants (by simp)

theorem ofRules_nil (path : Path) : Decision.ofRules [] path = .noMatchingRule :=
  Decision.ofRules_eq_of_prescribed (Set.eq_empty_iff_forall_notMem.mpr fun _ hr => absurd hr.1 (by simp))

end Store

/-! ## What the engine answers -/

namespace Engine

variable {e : Engine}

theorem run_eq_perform {now : Stamp} {op : Operation} (hfree : e.connection = .free) (hfault : op.fault? = none) :
    (e.run now op).1 = (op.perform now e.store).1 := by
  simp [run_eq, hfault, refusal?, hfree]

theorem eq_none_of_absent {α : Type} {found : α → Answer} (hfound : ∀ a, found a ≠ .absent) {o : Option α}
    (h : Answer.ofOption found o = .absent) : o = none := by
  cases o with
  | none => rfl
  | some a => exact absurd h (hfound a)

/-- An entry of a sound store has a role that can be read, and what the role grants is in what is read. -/
theorem run_getRole (hsound : e.store.Sound) (hfree : e.connection = .free) (now : Stamp) (privilege : String)
    {a : Ace} (ha : a ∈ e.store.aceList) : ∃ r, (e.run now (.getRole a.role)).1 = .ok (.role r) ∧
      e.store.grants a.role privilege = r.hasPrivilege privilege := by
  obtain ⟨row, hrow, -⟩ := Store.roleRow_isSome (hsound.ace_role a (mem_sorted.mp ha))
  have hread : e.store.role? a.role = some (e.store.load row) := by rw [Store.role?, hrow, Option.map_some]
  refine ⟨e.store.load row, ?_, ?_⟩
  · rw [run_eq_perform hfree rfl, Operation.perform, hread]
    rfl
  · rw [Store.grants, hread, Option.any_some]

/-- **Checks answer as the lists say.**  On a free connection the candidates of a check, and the check itself, are
what the list of entries and the roles of these entries give, as they are read. -/
theorem check_agrees (hreachable : Reachable e.store) (hfree : e.connection = .free) (now : Stamp) (user : Id)
    (path : Path) (privilege : String) :
    (e.run now .listAces).1 = .ok (.aces e.store.aceList) ∧
    (∀ a ∈ e.store.aceList, ∃ r, (e.run now (.getRole a.role)).1 = .ok (.role r) ∧
      e.store.grants a.role privilege = r.hasPrivilege privilege) ∧
    (∃ rules, (e.run now (.candidates user privilege)).1 = .ok (.rules rules) ∧
      rules.Perm (e.store.shownRules user privilege) ∧ rules.Pairwise fun a b => b.path.text ≤ a.path.text) ∧
    ∃ decision, (e.run now (.explain user path privilege)).1 = .ok (.decision decision) ∧
      decision = .ofRules (e.store.shownRules user privilege) path ∧
      (∃ b, (e.run now (.check user path privilege)).1 = .ok (.flag b) ∧
        (b = true ↔ ∃ level, decision = .allowed level)) ∧
      ((e.run now (.getUser user)).1 = .ok .absent ∨ (e.run now (.getPrivilegeNamed privilege)).1 = .ok .absent →
        decision = .noMatchingRule) := by
  have hsound := hreachable.sound
  refine ⟨run_eq_perform hfree rfl, fun a ha => run_getRole hsound hfree now privilege ha, ?_, ?_⟩
  · exact ⟨_, run_eq_perform hfree rfl, Store.candidates_perm hsound user privilege,
      Store.candidates_pairwise _ user privilege⟩
  · have hexplain := Store.explain_eq hsound user path privilege
    refine ⟨_, run_eq_perform hfree rfl, hexplain, ⟨_, run_eq_perform hfree rfl, ?_⟩, ?_⟩
    · rw [Store.check]
      cases e.store.explain user path privilege <;> simp [Decision.isAllowed]
    · intro habsent
      rw [run_eq_perform hfree rfl, run_eq_perform hfree rfl] at habsent
      have hunknown : e.store.user? user = none ∨ e.store.privilegeNamed? privilege = none :=
        habsent.imp (fun h => eq_none_of_absent (by simp) (Except.ok.inj h))
          (fun h => eq_none_of_absent (by simp) (Except.ok.inj h))
      rw [hexplain, Store.shownRules_eq_nil hsound hunknown, Store.ofRules_nil]

def operatorHistory : History :=
  [.createUser "ann", .createUser "bob", .createGroup "ops", .createRole "operator" none,
    .createPrivilege "Node.Console" none, .addPrivilege (.issue .role 1) (.issue .privilege 1),
    .createAce (.forUser (.ofString "/nodes") (.issue .user 1) (.issue .role 1)),
    .createAce { NewAce.forUser (.ofString "/nodes/1") (.issue .user 1) (.issue .role 1) with allowed := some false },
    .createAce (.forUser .root (.issue .user 2) (.issue .role 1)),
    .createAce (.forGroup (.ofString "/nodes/2") (.issue .group 1) (.issue .role 1))].map fun op => (⟨""⟩, op)

theorem check_agrees_operator :
    Reachable (Store.after {} operatorHistory) ∧
    (Store.after {} operatorHistory).shownRules (.issue .user 1) "Node.Console" =
      [⟨.ofString "/nodes", true, true⟩, ⟨.ofString "/nodes/1", false, true⟩] ∧
    (({ store := Store.after {} operatorHistory } : Engine).run ⟨""⟩
      (.check (.issue .user 1) (.ofString "/nodes/2") "Node.Console")).1 = .ok (.flag true) ∧
    (({ store := Store.after {} operatorHistory } : Engine).run ⟨""⟩
      (.explain (.issue .user 3) (.ofString "/nodes/2") "Node.Console")).1 = .ok (.decision .noMatchingRule) := by
  have hreachable : Reachable (Store.after {} operatorHistory) := Reachable.empty.after operatorHistory
  have hshown : (Store.after {} operatorHistory).shownRules (.issue .user 1) "Node.Console" =
      [⟨.ofString "/nodes", true, true⟩, ⟨.ofString "/nodes/1", false, true⟩] := by decide +kernel
  obtain ⟨-, -, -, known, -, hknown, ⟨b, hcheck, hb⟩, -⟩ :=
    check_agrees (e := { store := Store.after {} operatorHistory }) hreachable rfl ⟨""⟩ (.issue .user 1)
      (.ofString "/nodes/2") "Node.Console"
  obtain ⟨-, -, -, unknown, hexplain, -, -, hunknown⟩ :=
    check_agrees (e := { store := Store.after {} operatorHistory }) hreachable rfl ⟨""⟩ (.issue .user 3)
      (.ofString "/nodes/2") "Node.Console"
  have hallowed : known = .allowed (.ofString "/nodes") := by
    rw [hknown, hshown]
    decide +kernel
  refine ⟨hreachable, hshown, ?_, ?_⟩
  · rw [hcheck, hb.mpr ⟨_, hallowed⟩]
  · rw [hexplain, hunknown (Or.inl (by decide +kernel))]

end Engine

end ResourceAccess
