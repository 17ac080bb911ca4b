import ResourceAccess.Proofs.Session.Trace
import ResourceAccess.Proofs.Store.Candidates
import ResourceAccess.Proofs.Store.TopUp

/-!
# A new store after seeding

Seeding a store that has no rows brings the catalog and nothing else: each privilege and each role once, and for each
role the privileges that it covers.  With an administrator there is one user more, and one entry, which allows
everything below the root.

* `Store.HoldsCatalog`: the catalog is there, and nothing else is
* `Store.holdsCatalog_seed`: **so it is after seeding an empty store**
* `Store.AdministeredBy`: one user has the administrator's role on everything
* `Store.setUp_named`: so it is after a set-up with a name
* `Store.AdministeredBy.explain_allowed`, `Store.AdministeredBy.explain_unmatched`: **this user is allowed what the
  catalog names, and no rule is about anything else**
-/

namespace ResourceAccess.Store

variable {now : Stamp} {s : Store}

/-! ## The catalog in a store -/

/-- The catalog is there, and nothing else is but users and entries. -/
structure HoldsCatalog (s : Store) : Prop where
  privileges : s.privilegeTexts.Perm (Catalog.privileges.map catalogPrivilege)
  roles : s.roleTexts.Perm (Catalog.roles.map catalogRole)
  memberships : ∀ m, m ∈ s.memberships ↔ ∃ c ∈ Catalog.roles, ∃ r ∈ s.roles, r.name = c.name ∧
    ∃ p ∈ s.privileges, c.coverage.covers p.name = true ∧ m = ⟨r.id, p.id⟩
  memberships_nodup : s.memberships.Nodup
  groups : s.groups = []

theorem privilegeNamed_iff (h : s.privilegeTexts.Perm (Catalog.privileges.map catalogPrivilege)) {name : String} :
    (∃ p ∈ s.privileges, p.name = name) ↔ ∃ c ∈ Catalog.privileges, c.name = name := by
  have hnames : (s.privileges.map (·.name)).Perm (Catalog.privileges.map (·.name)) := by
    have htexts := h.map Prod.fst
    rw [privilegeTexts, List.map_map, List.map_map] at htexts
    exact htexts
  simpa only [List.mem_map] using hnames.mem_iff (a := name)

/-- What gains the catalog and had no rows has the catalog and nothing else. -/
theorem GainsCatalog.holdsCatalog {t : Store} (h : GainsCatalog now {} t) : t.HoldsCatalog := by
  obtain ⟨newPrivileges, hprivileges, -, htexts⟩ := h.privileges
  obtain ⟨newRoles, hroles, -, hroleTexts⟩ := h.roles
  rw [List.nil_append] at hprivileges hroles
  have hcatalog : t.privilegeTexts.Perm (Catalog.privileges.map catalogPrivilege) := by
    simpa [privilegeTexts, hprivileges] using htexts
  refine ⟨hcatalog, by simpa [roleTexts, hroles] using hroleTexts, fun m => ?_, h.memberships_nodup, h.groups⟩
  rw [h.memberships]
  constructor
  · rintro (hm | ⟨r, hr, p, hp, ⟨c, hc, hname, hcovers, -⟩, rfl⟩)
    · exact absurd hm List.not_mem_nil
    · exact ⟨c, hc, r, hr, hname.symm, p, hp, hcovers, rfl⟩
  · rintro ⟨c, hc, r, hr, hname, p, hp, hcovers, rfl⟩
    have hlisted := (privilegeNamed_iff hcatalog).mp ⟨p, hp, rfl⟩
    exact Or.inr ⟨r, hr, p, hp, ⟨c, hc, hname.symm, hcovers, hlisted⟩, rfl⟩

/-- **Seeding a store without rows brings the catalog and nothing else.** -/
theorem holdsCatalog_seed (now : Stamp) : (seed now {}).HoldsCatalog := by
  have hgains : GainsCatalog now {} (seed now {}) := gainsCatalog_seed sound_empty now
  obtain ⟨t, ht⟩ : ∃ t, seed now {} = t := ⟨_, rfl⟩
  rw [ht] at hgains ⊢
  exact hgains.holdsCatalog

/-! ## The administrator -/

/-- There is one user, and one entry, which gives this user the administrator's role on everything. -/
structure AdministeredBy (s : Store) (user : User) : Prop where
  users : s.users = [user]
  aces : ∃ role ∈ s.roles, role.name = Catalog.administrator ∧ ∃ ace, s.aces = [ace] ∧ ace.path = .root ∧
    ace.subject = .user user.id ∧ ace.role = role.id ∧ ace.allowed = true ∧ ace.propagates = true

theorem createAce_eq_ok {new : NewAce} {ace : Ace} {t : Store} (h : s.createAce now new = .ok (ace, t)) :
    ∃ subject, new.subject? = some subject ∧
      ace = ⟨.issue .ace (s.issued.aces + 1), new.path, subject, new.role, new.allowed.getD true,
        new.propagates.getD true, now, now⟩ ∧
      t = { s with aces := s.aces ++ [ace], issued := { s.issued with aces := s.issued.aces + 1 } } := by
  have heffect : Operation.Effect now s (.createAce new) (.ok (.ace ace), t) := by
    have hperform := Operation.createAce_effect now new s
    rw [Operation.perform, h] at hperform
    exact hperform
  cases heffect with
  | read hread => exact absurd hread Bool.false_ne_true
  | aceAdded hrole hgiven hsubject hnew hace => exact ⟨_, hgiven, hace, rfl⟩

/-- Where there are no users and no entries, making an administrator adds one of each and nothing else. -/
theorem addAdministrator_content {name : String} {t : Store} (husers : s.users = []) (haces : s.aces = [])
    (h : s.addAdministrator now name = .ok t) :
    ∃ user, user.name = name ∧ t.AdministeredBy user ∧ s = { t with users := [], aces := [], issued := s.issued } := by
  obtain ⟨user, withUser, role, ace, huser, hrole, hace⟩ := addAdministrator_eq_ok h
  obtain ⟨hname, hwithUser⟩ := createUser_eq_ok huser
  obtain ⟨subject, hgiven, hentry, ht⟩ := createAce_eq_ok hace
  obtain rfl : subject = .user user.id := (Option.some.inj hgiven).symm
  obtain ⟨hrow, hadministrator⟩ := find_key_eq_some hrole
  rw [husers, List.nil_append] at hwithUser
  have hwithUserAces : withUser.aces = [] := by rw [hwithUser, haces]
  rw [hwithUserAces, List.nil_append] at ht
  have hrole' : role ∈ t.roles := by rw [ht]; exact hrow
  have hgives : ace.path = .root ∧ ace.subject = .user user.id ∧ ace.role = role.id ∧ ace.allowed = true ∧
      ace.propagates = true := by
    rw [hentry]
    exact ⟨rfl, rfl, rfl, rfl, rfl⟩
  refine ⟨user, by rw [hname], ⟨by rw [ht, hwithUser], role, hrole', hadministrator, ace, by rw [ht], hgives⟩, ?_⟩
  rw [ht, hwithUser, ← husers, ← haces]

/-- The catalog is not about users and entries. -/
theorem HoldsCatalog.of_same {t : Store} (h : s.HoldsCatalog)
    (hsame : s = { t with users := [], aces := [], issued := s.issued }) : t.HoldsCatalog := by
  rw [hsame] at h
  exact ⟨h.privileges, h.roles, h.memberships, h.memberships_nodup, h.groups⟩

/-- A set-up with a name that is not blank makes its bearer administrator of the catalog. -/
theorem setUp_named {name : String} (hname : Text.isBlank name = false) (now : Stamp) :
    ∃ user, user.name = name ∧ (setUp now (some name)).1 = .ok () ∧ (setUp now (some name)).2.HoldsCatalog ∧
      (setUp now (some name)).2.AdministeredBy user ∧
      seed now {} = { (setUp now (some name)).2 with users := [], aces := [], issued := (seed now {}).issued } := by
  have hframe := seed_frame now {}
  have hrole := hasAdministrator_seed now {}
  have hcatalog := holdsCatalog_seed now
  have hfault : (Operation.createUser name).fault? = none := by simp [Operation.fault?, Operation.nameFault?, hname]
  unfold setUp
  obtain ⟨seeded, heq⟩ : ∃ seeded, seed now {} = seeded := ⟨_, rfl⟩
  rw [heq] at hframe hrole hcatalog ⊢
  obtain ⟨t, hadd⟩ := addAdministrator_ok hframe.users hframe.aces hrole now name
  obtain ⟨user, huser, hadministered, hsame⟩ := addAdministrator_content hframe.users hframe.aces hadd
  simp only [hfault, hadd]
  exact ⟨user, huser, trivial, hcatalog.of_same hsame, hadministered, hsame⟩

/-! ## What the administrator may do -/

namespace AdministeredBy

variable {user : User} {subject : Id} {privilege : String} {path : Path}

/-- The only rule that there is allows the administrator everything that the catalog names. -/
theorem mem_candidates_iff (h : s.AdministeredBy user) (hcatalog : s.HoldsCatalog) {r : Rule} :
    r ∈ s.candidates subject privilege ↔
      r = ⟨.root, true, true⟩ ∧ subject = user.id ∧ ∃ c ∈ Catalog.privileges, c.name = privilege := by
  obtain ⟨role, hrole, hname, ace, haces, hpath, hsubject, hgives, hallowed, hpropagates⟩ := h.aces
  rw [Store.mem_candidates_iff, haces]
  constructor
  · rintro ⟨a, ha, hbinds, rfl, m, -, -, p, hp, -, hprivilege⟩
    obtain rfl := List.mem_singleton.mp ha
    refine ⟨by rw [Ace.rule, hpath, hallowed, hpropagates], ?_,
      (privilegeNamed_iff hcatalog.privileges).mp ⟨p, hp, hprivilege⟩⟩
    exact (Subject.user.inj (hsubject.symm.trans hbinds)).symm
  · rintro ⟨rfl, rfl, hnamed⟩
    obtain ⟨p, hp, hprivilege⟩ := (privilegeNamed_iff hcatalog.privileges).mpr hnamed
    have hmember : Membership.mk role.id p.id ∈ s.memberships := (hcatalog.memberships _).mpr
      ⟨⟨Catalog.administrator, "Administrator role", .all⟩, List.mem_cons_self, role, hrole, hname, p, hp, rfl, rfl⟩
    exact ⟨ace, List.mem_singleton.mpr rfl, hsubject, by rw [Ace.rule, hpath, hallowed, hpropagates],
      _, hmember, hgives.symm, p, hp, rfl, hprivilege⟩

theorem explain_allowed (h : s.AdministeredBy user) (hcatalog : s.HoldsCatalog) (hpath : path.isRooted = true)
    (hnamed : ∃ c ∈ Catalog.privileges, c.name = privilege) :
    s.explain user.id path privilege = .allowed .root := by
  have honly : ∀ r, r ∈ s.candidates user.id privilege ↔ r = ⟨.root, true, true⟩ := by
    intro r
    rw [h.mem_candidates_iff hcatalog]
    exact and_iff_left ⟨rfl, hnamed⟩
  have hspeaks : (⟨.root, true, true⟩ : Rule) ∈ Decision.speaking (s.candidates user.id privilege) path :=
    ⟨(honly _).mpr rfl, Path.root_mem_levels_iff.mpr (Or.inl hpath), Or.inr (Or.inr rfl)⟩
  refine Decision.ofRules_eq_of_prescribed ⟨⟨⟨_, hspeaks, rfl⟩, fun r hr => ?_⟩, fun r hr _ => ?_⟩
  · rw [(honly r).mp hr.1]
  · rw [(honly r).mp hr.1]

theorem explain_unmatched (h : s.AdministeredBy user) (hcatalog : s.HoldsCatalog)
    (hnot : subject ≠ user.id ∨ ¬ ∃ c ∈ Catalog.privileges, c.name = privilege) :
    s.explain subject path privilege = .noMatchingRule := by
  refine Decision.ofRules_eq_of_prescribed (Set.eq_empty_iff_forall_notMem.mpr fun r hr => ?_)
  obtain ⟨-, hsubject, hnamed⟩ := (h.mem_candidates_iff hcatalog).mp hr.1
  rcases hnot with hother | hunnamed
  · exact hother hsubject
  · exact hunnamed hnamed

end AdministeredBy

end ResourceAccess.Store
