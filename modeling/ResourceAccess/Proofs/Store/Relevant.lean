import ResourceAccess.Proofs.Store.Candidates

/-!
# What a check depends on

A check of a user, a path and a privilege depends on a few entries: those of the user himself that stand at a level of
the path and whose role holds the privilege.  Two stores in which the rules of these entries are the same answer alike.
So an operation that leaves these entries alone, by what it is or by what it is applied to, leaves the answer alone.

* `Store.relevant`, `Store.relevantRules`: the entries that count, and what they say
* `Store.explain_congr`: nothing else is looked at
* `Operation.Bypasses`: the operations that have nothing to do with a check, each with the reason
* `Operation.Bypasses.relevant_eq`: they leave the entries that count as they were
* `Engine.explain_noninterference`: **so checks do not interfere with what is none of their business**
-/

namespace ResourceAccess

namespace Store

/-- The role holds a privilege of that name. -/
def Holds (s : Store) (role : Id) (privilege : String) : Prop :=
  ∃ m ∈ s.memberships, m.role = role ∧ ∃ p ∈ s.privileges, p.id = m.privilege ∧ p.name = privilege

/-- Entries with this key count for the check: they are the user's own, at a level of the path, and for a role that
holds the privilege. -/
structure Counts (s : Store) (user : Id) (path : Path) (privilege : String) (key : Path × Subject × Id) : Prop where
  own : key.2.1 = .user user
  mem_levels : key.1 ∈ path.levels
  holds : s.Holds key.2.2 privilege

def relevant (s : Store) (user : Id) (path : Path) (privilege : String) : Set Ace :=
  {a | a ∈ s.aces ∧ s.Counts user path privilege a.key}

/-- What the entries that count for the check say. -/
def relevantRules (s : Store) (user : Id) (path : Path) (privilege : String) : Set Rule :=
  {r | ∃ a ∈ s.relevant user path privilege, a.rule = r}

variable {now : Stamp} {s t : Store} {user : Id} {path : Path} {privilege : String}

theorem mem_relevantRules_iff {r : Rule} : r ∈ s.relevantRules user path privilege ↔
    r ∈ s.candidates user privilege ∧ r.path ∈ path.levels := by
  rw [mem_candidates_iff]
  constructor
  · rintro ⟨a, ⟨ha, hcounts⟩, rfl⟩
    exact ⟨⟨a, ha, hcounts.own, rfl, hcounts.holds⟩, hcounts.mem_levels⟩
  · rintro ⟨⟨a, ha, hown, rfl, hholds⟩, hlevel⟩
    exact ⟨a, ⟨ha, hown, hlevel, hholds⟩, rfl⟩

/-- **A check looks at nothing but the entries that count.** -/
theorem explain_congr (h : t.relevantRules user path privilege = s.relevantRules user path privilege) :
    t.explain user path privilege = s.explain user path privilege := by
  refine Decision.ofRules_congr (Set.ext fun r => and_congr_left fun hspeaks => ?_)
  have hiff : r ∈ t.relevantRules user path privilege ↔ r ∈ s.relevantRules user path privilege := by rw [h]
  simpa only [mem_relevantRules_iff, hspeaks.mem_levels, and_true] using hiff

/-! ## Ways to leave the entries alone -/

/-- The table of entries is as it was, and the roles hold what they held. -/
theorem relevant_of_holds (haces : t.aces = s.aces) (hholds : ∀ role, t.Holds role privilege ↔ s.Holds role privilege) :
    t.relevant user path privilege = s.relevant user path privilege := by
  refine Set.ext fun a => ?_
  constructor
  · rintro ⟨ha, hcounts⟩
    exact ⟨haces ▸ ha, hcounts.own, hcounts.mem_levels, (hholds _).mp hcounts.holds⟩
  · rintro ⟨ha, hcounts⟩
    exact ⟨haces ▸ ha, hcounts.own, hcounts.mem_levels, (hholds _).mpr hcounts.holds⟩

/-- Memberships and privileges are as they were, and so are the entries that count. -/
theorem relevant_of_aces (hmemberships : t.memberships = s.memberships) (hprivileges : t.privileges = s.privileges)
    (haces : ∀ a, s.Counts user path privilege a.key → (a ∈ t.aces ↔ a ∈ s.aces)) :
    t.relevant user path privilege = s.relevant user path privilege := by
  have hholds : ∀ role, t.Holds role privilege ↔ s.Holds role privilege := by
    intro role
    rw [Holds, Holds, hmemberships, hprivileges]
  refine Set.ext fun a => ?_
  constructor
  · rintro ⟨ha, hcounts⟩
    have hcounted : s.Counts user path privilege a.key :=
      ⟨hcounts.own, hcounts.mem_levels, (hholds _).mp hcounts.holds⟩
    exact ⟨(haces a hcounted).mp ha, hcounted⟩
  · rintro ⟨ha, hcounts⟩
    exact ⟨(haces a hcounts).mpr ha, hcounts.own, hcounts.mem_levels, (hholds _).mpr hcounts.holds⟩

theorem relevant_of_same (haces : t.aces = s.aces) (hmemberships : t.memberships = s.memberships)
    (hprivileges : t.privileges = s.privileges) : t.relevant user path privilege = s.relevant user path privilege :=
  relevant_of_aces hmemberships hprivileges fun a _ => by rw [haces]

/-! ## What roles hold -/

theorem holds_insertPrivilege (h : s.Sound) (name : String) (description : Option String) (role : Id) :
    (s.insertPrivilege now name description).2.Holds role privilege ↔ s.Holds role privilege := by
  have hfresh : ∀ m ∈ s.memberships, .issue .privilege (s.issued.privileges + 1) ≠ m.privilege := by
    intro m hm heq
    have hissued := h.privileges.ids_sublist.subset (h.membership_privilege m hm)
    rw [← heq] at hissued
    obtain ⟨n, hn, hsame⟩ := List.mem_map.mp hissued
    have hsucc := (Id.issue_inj.mp hsame).2
    have hlt := List.mem_range.mp hn
    omega
  constructor
  · rintro ⟨m, hm, hrole, p, hp, hid, hname⟩
    rcases List.mem_append.mp hp with hp | hp
    · exact ⟨m, hm, hrole, p, hp, hid, hname⟩
    · rw [List.mem_singleton.mp hp] at hid
      exact absurd hid (hfresh m hm)
  · rintro ⟨m, hm, hrole, p, hp, hid, hname⟩
    exact ⟨m, hm, hrole, p, List.mem_append_left _ hp, hid, hname⟩

/-- Rows may change as long as they keep their identifiers.  What roles hold by the one name before they hold by the
other one afterwards, if the rows that were called by the one are those that are called by the other. -/
theorem holds_map {before after : String} (hmemberships : t.memberships = s.memberships) {change : Privilege → Privilege}
    (hprivileges : t.privileges = s.privileges.map change) (hid : ∀ p ∈ s.privileges, (change p).id = p.id)
    (hname : ∀ p ∈ s.privileges, (change p).name = after ↔ p.name = before) (role : Id) :
    t.Holds role after ↔ s.Holds role before := by
  rw [Holds, Holds, hmemberships, hprivileges]
  refine exists_congr fun m => and_congr_right fun _ => and_congr_right fun _ => ?_
  constructor
  · rintro ⟨p, hp, hpid, hpname⟩
    obtain ⟨q, hq, rfl⟩ := List.mem_map.mp hp
    exact ⟨q, hq, (hid q hq).symm.trans hpid, (hname q hq).mp hpname⟩
  · rintro ⟨q, hq, hqid, hqname⟩
    exact ⟨change q, List.mem_map_of_mem hq, (hid q hq).trans hqid, (hname q hq).mpr hqname⟩

/-- A row that keeps its identifier, and is called by the name as much as before, changes nothing that roles hold. -/
theorem holds_changePrivilege (h : s.Sound) {row changed : Privilege} (hrow : row ∈ s.privileges)
    (hid : changed.id = row.id) (hname : changed.name = privilege ↔ row.name = privilege) (role : Id) :
    { s with
      privileges := s.privileges.map fun p : Privilege => if p.id = row.id then changed else p }.Holds role privilege ↔
        s.Holds role privilege := by
  refine holds_map (by rfl) (by rfl) (fun p hp => ?_) (fun p hp => ?_) role
  · by_cases hsame : p.id = row.id
    · rw [if_pos hsame, hid, hsame]
    · rw [if_neg hsame]
  · by_cases hsame : p.id = row.id
    · obtain rfl := h.privileges.eq_of_id_eq hp hrow hsame
      rw [if_pos rfl, hname]
    · rw [if_neg hsame]

/-- Memberships may come and go as long as they are of privileges with other names. -/
theorem holds_of_memberships (hprivileges : t.privileges = s.privileges)
    (hmemberships : ∀ m : Membership, (∃ p ∈ s.privileges, p.id = m.privilege ∧ p.name = privilege) →
      (m ∈ t.memberships ↔ m ∈ s.memberships)) (role : Id) : t.Holds role privilege ↔ s.Holds role privilege := by
  refine exists_congr fun m => ?_
  rw [hprivileges]
  constructor
  · rintro ⟨hm, hrole, hnamed⟩
    exact ⟨(hmemberships m hnamed).mp hm, hrole, hnamed⟩
  · rintro ⟨hm, hrole, hnamed⟩
    exact ⟨(hmemberships m hnamed).mpr hm, hrole, hnamed⟩

theorem holds_attach {role id : Id} (hother : ∀ p ∈ s.privileges, p.id = id → p.name ≠ privilege) (holder : Id) :
    (s.attach role id).Holds holder privilege ↔ s.Holds holder privilege := by
  unfold attach
  split
  · rfl
  · refine holds_of_memberships ?_ ?_ holder
    · rfl
    · rintro m ⟨p, hp, hid, hname⟩
      rw [List.mem_append, List.mem_singleton, or_iff_left]
      rintro rfl
      exact hother p hp hid hname

theorem holds_detach {role id : Id} (hother : ∀ p ∈ s.privileges, p.id = id → p.name ≠ privilege) (holder : Id) :
    { s with memberships := s.memberships.filter (· != Membership.mk role id) }.Holds holder privilege ↔
      s.Holds holder privilege := by
  refine holds_of_memberships ?_ ?_ holder
  · rfl
  · rintro m ⟨p, hp, hid, hname⟩
    rw [List.mem_filter, bne_iff_ne, and_iff_left]
    rintro rfl
    exact hother p hp hid hname

theorem holds_deletePrivilege {id : Id} (hother : ∀ p ∈ s.privileges, p.id = id → p.name ≠ privilege) (role : Id) :
    (s.deletePrivilege id).2.Holds role privilege ↔ s.Holds role privilege := by
  constructor
  · rintro ⟨m, hm, hrole, p, hp, hpid, hpname⟩
    exact ⟨m, List.mem_of_mem_filter hm, hrole, p, List.mem_of_mem_filter hp, hpid, hpname⟩
  · rintro ⟨m, hm, hrole, p, hp, hpid, hpname⟩
    have hne : p.id ≠ id := fun hid => hother p hp hid hpname
    exact ⟨m, List.mem_filter.mpr ⟨hm, by simpa [← hpid] using hne⟩, hrole, p,
      List.mem_filter.mpr ⟨hp, by simpa using hne⟩, hpid, hpname⟩

/-! ## The table of entries -/

theorem relevant_filter {keep : Ace → Bool}
    (hkeep : ∀ a ∈ s.aces, s.Counts user path privilege a.key → keep a = true)
    (hmemberships : t.memberships = s.memberships) (hprivileges : t.privileges = s.privileges)
    (haces : t.aces = s.aces.filter keep) : t.relevant user path privilege = s.relevant user path privilege := by
  refine relevant_of_aces hmemberships hprivileges fun a hcounts => ?_
  rw [haces, List.mem_filter]
  exact ⟨And.left, fun ha => ⟨ha, hkeep a ha hcounts⟩⟩

theorem relevant_addAce {ace : Ace} (haces : t.aces = s.aces ++ [ace]) (hmemberships : t.memberships = s.memberships)
    (hprivileges : t.privileges = s.privileges) (hnot : ¬ s.Counts user path privilege ace.key) :
    t.relevant user path privilege = s.relevant user path privilege := by
  refine relevant_of_aces hmemberships hprivileges fun a hcounts => ?_
  rw [haces, List.mem_append, List.mem_singleton, or_iff_left]
  rintro rfl
  exact hnot hcounts

theorem relevant_changeAce {id : Id} {changed : Ace}
    (hbefore : ∀ a ∈ s.aces, a.id = id → ¬ s.Counts user path privilege a.key)
    (hafter : ¬ s.Counts user path privilege changed.key) :
    { s with aces := s.aces.map fun a : Ace => if a.id = id then changed else a }.relevant user path privilege =
      s.relevant user path privilege := by
  refine relevant_of_aces rfl rfl fun a hcounts => ?_
  rw [List.mem_map]
  constructor
  · rintro ⟨old, hold, rfl⟩
    by_cases hsame : old.id = id
    · rw [if_pos hsame] at hcounts
      exact absurd hcounts hafter
    · rw [if_neg hsame]
      exact hold
  · intro ha
    have hne : a.id ≠ id := fun hsame => hbefore a ha hsame hcounts
    exact ⟨a, ha, if_neg hne⟩

theorem relevant_deleteUser {id : Id} (hother : id ≠ user) :
    (s.deleteUser id).2.relevant user path privilege = s.relevant user path privilege := by
  refine relevant_filter (fun a _ hcounts => ?_) rfl rfl rfl
  have hown : a.subject = .user user := hcounts.own
  simpa [hown] using hother.symm

theorem relevant_deleteGroup {id : Id} :
    (s.deleteGroup id).2.relevant user path privilege = s.relevant user path privilege := by
  refine relevant_filter (fun a _ hcounts => ?_) rfl rfl rfl
  have hown : a.subject = .user user := hcounts.own
  simp [hown]

theorem relevant_deleteAce {id : Id} (hother : ∀ a ∈ s.aces, a.id = id → ¬ s.Counts user path privilege a.key) :
    (s.deleteAce id).2.relevant user path privilege = s.relevant user path privilege := by
  refine relevant_filter (fun a ha hcounts => ?_) rfl rfl rfl
  have hne : a.id ≠ id := fun hid => hother a ha hid hcounts
  simpa using hne

/-- With a role go its entries and what it holds, neither of which counts if no entry gives the role. -/
theorem relevant_deleteRole {id : Id}
    (hunused : ∀ a ∈ s.aces, a.subject = .user user → a.path ∈ path.levels → a.role ≠ id)
    (hmemberships : t.memberships = s.memberships.filter (·.role != id)) (hprivileges : t.privileges = s.privileges)
    (haces : t.aces = s.aces.filter (·.role != id)) :
    t.relevant user path privilege = s.relevant user path privilege := by
  refine Set.ext fun a => ?_
  constructor
  · rintro ⟨ha, hcounts⟩
    obtain ⟨m, hm, hrole, hnamed⟩ := hcounts.holds
    rw [hmemberships] at hm
    rw [hprivileges] at hnamed
    rw [haces] at ha
    exact ⟨List.mem_of_mem_filter ha, hcounts.own, hcounts.mem_levels, m, List.mem_of_mem_filter hm, hrole, hnamed⟩
  · rintro ⟨ha, hcounts⟩
    obtain ⟨m, hm, hrole, hnamed⟩ := hcounts.holds
    have hne : a.role ≠ id := hunused a ha hcounts.own hcounts.mem_levels
    have hkept : m ∈ t.memberships := by
      have hrole' : m.role ≠ id := fun hid => hne (hrole.symm.trans hid)
      rw [hmemberships]
      exact List.mem_filter.mpr ⟨hm, by simpa using hrole'⟩
    rw [← hprivileges] at hnamed
    refine ⟨?_, hcounts.own, hcounts.mem_levels, m, hkept, hrole, hnamed⟩
    rw [haces]
    exact List.mem_filter.mpr ⟨ha, by simpa using hne⟩

end Store

/-! ## Operations that have nothing to do with a check -/

namespace Operation

/-- The operations that have nothing to do with a check of the user, the path and the privilege, and why. -/
inductive Bypasses (s : Store) (user : Id) (path : Path) (privilege : String) : Operation → Prop
  | read {op : Operation} (hread : op.isRead = true) : Bypasses s user path privilege op
  -- users and groups
  | createUser {name : String} : Bypasses s user path privilege (.createUser name)
  | deleteUser {id : Id} (hother : id ≠ user) : Bypasses s user path privilege (.deleteUser id)
  | createGroup {name : String} : Bypasses s user path privilege (.createGroup name)
  | deleteGroup {id : Id} : Bypasses s user path privilege (.deleteGroup id)
  -- roles
  | createRole {name : String} {description : Option String} :
    Bypasses s user path privilege (.createRole name description)
  | updateRole {id : Id} {update : RoleUpdate} : Bypasses s user path privilege (.updateRole id update)
  | deleteRole {id : Id} (hunused : ∀ a ∈ s.aces, a.subject = .user user → a.path ∈ path.levels → a.role ≠ id) :
    Bypasses s user path privilege (.deleteRole id)
  -- memberships
  | addPrivilege {role id : Id} (hother : ∀ p ∈ s.privileges, p.id = id → p.name ≠ privilege) :
    Bypasses s user path privilege (.addPrivilege role id)
  | removePrivilege {role id : Id} (hother : ∀ p ∈ s.privileges, p.id = id → p.name ≠ privilege) :
    Bypasses s user path privilege (.removePrivilege role id)
  -- privileges
  | createPrivilege {name : String} {description : Option String} :
    Bypasses s user path privilege (.createPrivilege name description)
  | updatePrivilege {id : Id} {update : PrivilegeUpdate} (hother : ∀ p ∈ s.privileges, p.id = id →
      (update.apply p).name = p.name ∨ p.name ≠ privilege ∧ (update.apply p).name ≠ privilege) :
    Bypasses s user path privilege (.updatePrivilege id update)
  | deletePrivilege {id : Id} (hother : ∀ p ∈ s.privileges, p.id = id → p.name ≠ privilege) :
    Bypasses s user path privilege (.deletePrivilege id)
  -- entries
  | createAce {new : NewAce} (hother : ∀ subject, new.subject? = some subject →
      ¬ s.Counts user path privilege (new.path, subject, new.role)) : Bypasses s user path privilege (.createAce new)
  | updateAce {id : Id} {update : AceUpdate} (hother : ∀ a ∈ s.aces, a.id = id →
      ¬ s.Counts user path privilege a.key ∧ ¬ s.Counts user path privilege (update.apply a).key) :
    Bypasses s user path privilege (.updateAce id update)
  | deleteAce {id : Id} (hother : ∀ a ∈ s.aces, a.id = id → ¬ s.Counts user path privilege a.key) :
    Bypasses s user path privilege (.deleteAce id)

open Store

variable {now : Stamp} {s t : Store} {user : Id} {path : Path} {privilege : String}
  {answer : Except AccessError Answer}

/-- **What an operation of this kind does leaves the entries that count as they were.** -/
theorem Bypasses.relevant_eq {op : Operation} (h : op.Bypasses s user path privilege) (hs : s.Sound)
    (heffect : op.Effect now s (answer, t)) : t.relevant user path privilege = s.relevant user path privilege := by
  cases h with
  | read hread => exact congrArg (·.relevant user path privilege) (heffect.read_keeps hread)
  | createUser => cases heffect <;> exact relevant_of_same rfl rfl rfl
  | deleteUser hother =>
    cases heffect with
    | read => rfl
    | userAbsent => exact relevant_deleteUser hother
    | userDeleted => exact relevant_deleteUser hother
  | createGroup => cases heffect <;> exact relevant_of_same rfl rfl rfl
  | deleteGroup =>
    cases heffect with
    | read => rfl
    | groupAbsent => exact relevant_deleteGroup
    | groupDeleted => exact relevant_deleteGroup
  | createRole => cases heffect <;> exact relevant_of_same rfl rfl rfl
  | updateRole =>
    cases heffect with
    | roleChanged _ _ _ _ ht =>
      subst ht
      exact relevant_of_same rfl rfl rfl
    | _ => rfl
  | deleteRole hunused =>
    cases heffect with
    | roleDeleted => exact relevant_deleteRole hunused rfl rfl rfl
    | _ => rfl
  | @addPrivilege role id hother =>
    cases heffect with
    | attached _ _ _ _ ht =>
      have haces : (s.attach role id).aces = s.aces := by
        unfold attach
        split <;> rfl
      subst ht
      exact relevant_of_holds haces (holds_attach hother)
    | _ => rfl
  | removePrivilege hother =>
    cases heffect with
    | detached _ _ _ ht =>
      subst ht
      exact relevant_of_holds rfl (holds_detach hother)
    | _ => rfl
  | createPrivilege =>
    cases heffect with
    | privilegeAdded => exact relevant_of_holds rfl (holds_insertPrivilege hs _ _)
    | _ => rfl
  | @updatePrivilege id update hother =>
    cases heffect with
    | @privilegeChanged _ row _ hrow hid =>
      subst hid
      have hname : (update.apply row).name = privilege ↔ row.name = privilege := by
        rcases hother row hrow rfl with hsame | ⟨hold, hnew⟩
        · rw [hsame]
        · exact iff_of_false hnew hold
      exact relevant_of_holds rfl (holds_changePrivilege hs hrow rfl hname)
    | _ => rfl
  | deletePrivilege hother =>
    cases heffect with
    | read => rfl
    | privilegeAbsent => exact relevant_of_holds rfl (holds_deletePrivilege hother)
    | privilegeDeleted => exact relevant_of_holds rfl (holds_deletePrivilege hother)
  | createAce hother =>
    cases heffect with
    | aceAdded _ hgiven _ _ hace =>
      subst hace
      exact relevant_addAce rfl rfl rfl (hother _ hgiven)
    | _ => rfl
  | updateAce hother =>
    cases heffect with
    | aceChanged hrow hid =>
      exact relevant_changeAce (fun a ha hsame => (hother a ha hsame).1) (hother _ hrow hid).2
    | _ => rfl
  | deleteAce hother =>
    cases heffect with
    | read => rfl
    | aceAbsent => exact relevant_deleteAce hother
    | aceDeleted => exact relevant_deleteAce hother

end Operation

/-! ## What the engine answers -/

namespace Engine

variable {e : Engine} {user : Id} {path : Path} {privilege : String}

theorem run_explain (hfree : e.connection = .free) (now : Stamp) :
    (e.run now (.explain user path privilege)).1 = .ok (.decision (e.store.explain user path privilege)) :=
  run_eq_perform hfree rfl

/-- Where the tables change and the connection does not, the answer to a check is a matter of the decision alone. -/
theorem run_explain_congr {t : Store} (h : t.explain user path privilege = e.store.explain user path privilege)
    (now : Stamp) : ({ e with store := t }.run now (.explain user path privilege)).1 =
      (e.run now (.explain user path privilege)).1 := by
  have hrefusal : { e with store := t }.refusal? (.explain user path privilege) =
      e.refusal? (.explain user path privilege) := rfl
  cases hcase : e.refusal? (.explain user path privilege) with
  | some error => simp only [run_eq, Operation.fault?, hrefusal, hcase]
  | none => simp only [run_eq, Operation.fault?, hrefusal, hcase, Operation.perform, Reply.read, h]

/-- **Checks do not interfere with what is none of their business.**  Two stores whose entries that count for a check
say the same give the same decision.  And an operation that has nothing to do with the check, or that is refused, leaves
its answer as it was. -/
theorem explain_noninterference (hreachable : Reachable e.store) (user : Id) (path : Path) (privilege : String) :
    (∀ d : Engine, d.connection = .free → e.connection = .free →
      d.store.relevantRules user path privilege = e.store.relevantRules user path privilege → ∀ now later,
        ∃ decision, (d.run now (.explain user path privilege)).1 = .ok (.decision decision) ∧
          (e.run later (.explain user path privilege)).1 = .ok (.decision decision)) ∧
    ∀ now later op, op.Bypasses e.store user path privilege ∨ (∃ error, (e.run now op).1 = .error error) →
      ((e.run now op).2.run later (.explain user path privilege)).1 =
        (e.run later (.explain user path privilege)).1 := by
  constructor
  · intro d hd he hrules now later
    refine ⟨_, run_explain hd now, ?_⟩
    rw [run_explain he, Store.explain_congr hrules]
  · rintro now later op (hbypasses | ⟨error, herror⟩)
    · rcases e.run_effect now op with ⟨error, hrun⟩ | ⟨answer, t, heffect, hrun⟩
      · rw [hrun]
      · rw [hrun]
        have hrelevant := hbypasses.relevant_eq hreachable.sound heffect
        refine run_explain_congr (Store.explain_congr ?_) later
        rw [Store.relevantRules, Store.relevantRules, hrelevant]
    · rw [run_error_keeps herror]

def loneOperatorHistory : History :=
  [.createUser "ann", .createRole "operator" none, .createPrivilege "Node.Console" none,
    .addPrivilege (.issue .role 1) (.issue .privilege 1),
    .createAce (.forUser (.ofString "/nodes") (.issue .user 1) (.issue .role 1))].map fun op => (⟨""⟩, op)

/-- What others may do is no matter, and neither is what the operator may do elsewhere, even when it is moved. -/
theorem explain_noninterference_operator :
    Reachable (Store.after {} operatorHistory) ∧
    (({ store := Store.after {} loneOperatorHistory } : Engine).run ⟨""⟩
      (.explain (.issue .user 1) (.ofString "/nodes/2") "Node.Console")).1 =
        .ok (.decision (.allowed (.ofString "/nodes"))) ∧
    ((({ store := Store.after {} operatorHistory } : Engine).run ⟨""⟩
      (.updateAce (.issue .ace 2) { path := some (.ofString "/nodes/3") })).2.run ⟨""⟩
        (.explain (.issue .user 1) (.ofString "/nodes/2") "Node.Console")).1 =
          .ok (.decision (.allowed (.ofString "/nodes"))) := by
  have hreachable : Reachable (Store.after {} operatorHistory) := Reachable.empty.after operatorHistory
  obtain ⟨hsame, hbypasses⟩ := explain_noninterference (e := { store := Store.after {} operatorHistory }) hreachable
    (.issue .user 1) (.ofString "/nodes/2") "Node.Console"
  have hexplain : (({ store := Store.after {} operatorHistory } : Engine).run ⟨""⟩
      (.explain (.issue .user 1) (.ofString "/nodes/2") "Node.Console")).1 =
        .ok (.decision (.allowed (.ofString "/nodes"))) := by decide +kernel
  refine ⟨hreachable, ?_, ?_⟩
  · -- the denial at another node is a candidate in one store only, and does not count
    have hrules : (Store.after {} loneOperatorHistory).relevantRules (.issue .user 1) (.ofString "/nodes/2")
        "Node.Console" = (Store.after {} operatorHistory).relevantRules (.issue .user 1) (.ofString "/nodes/2")
          "Node.Console" := by
      have hfew : (Store.after {} loneOperatorHistory).candidates (.issue .user 1) "Node.Console" =
          [⟨.ofString "/nodes", true, true⟩] := by decide +kernel
      have hmore : (Store.after {} operatorHistory).candidates (.issue .user 1) "Node.Console" =
          [⟨.ofString "/nodes/1", false, true⟩, ⟨.ofString "/nodes", true, true⟩] := by decide +kernel
      have hbeside : Path.ofString "/nodes/1" ∉ (Path.ofString "/nodes/2").levels := by decide +kernel
      refine Set.ext fun r => ?_
      rw [Store.mem_relevantRules_iff, Store.mem_relevantRules_iff, hfew, hmore]
      refine and_congr_left fun hlevel => ⟨List.mem_cons_of_mem _, fun hr => ?_⟩
      rcases List.mem_cons.mp hr with rfl | hr
      · exact absurd hlevel hbeside
      · exact hr
    obtain ⟨decision, hfirst, hsecond⟩ := hsame { store := Store.after {} loneOperatorHistory } rfl rfl hrules ⟨""⟩
      ⟨""⟩
    rw [hfirst, ← hsecond, hexplain]
  · have hbefore : ∀ a ∈ (Store.after {} operatorHistory).aces, a.id = .issue .ace 2 →
        a.path ∉ (Path.ofString "/nodes/2").levels := by decide +kernel
    have hafter : Path.ofString "/nodes/3" ∉ (Path.ofString "/nodes/2").levels := by decide +kernel
    have hmoved : Operation.Bypasses (Store.after {} operatorHistory) (.issue .user 1) (.ofString "/nodes/2")
        "Node.Console" (.updateAce (.issue .ace 2) { path := some (.ofString "/nodes/3") }) :=
      .updateAce fun a ha hid => ⟨fun h => hbefore a ha hid h.mem_levels, fun h => hafter h.mem_levels⟩
    rw [hbypasses ⟨""⟩ ⟨""⟩ _ (Or.inl hmoved), hexplain]

end Engine

end ResourceAccess
