import ResourceAccess.Proofs.Store.Membership

/-!
# What seeding brings to any store

Seeding tops a store up.  What is missing is decided by names alone, so a row that bears a name of the catalog takes the
place of the catalog's row, whoever made it, and stays as it is.  Privileges are handed out by the names that rows bear
then, but only those that the catalog lists: what is of somebody's own making is neither given to a role of the catalog
nor taken from anybody.

* `Store.GainsCatalog`: what one store has more than another after seeding
* `Store.seed_seed`: seeding again changes nothing
* `Engine.seed_adds_catalog`: **seeding brings what the catalog lacks there and nothing else, and does so once**
-/

namespace ResourceAccess

namespace Store

variable {now : Stamp} {s t : Store}

/-! ## New rows -/

/-- The rows are the old ones, as they were, and after them new ones that are such. -/
def Appends {α : Type} (P : α → Prop) (old rows : List α) : Prop := ∃ new, rows = old ++ new ∧ ∀ row ∈ new, P row

theorem Appends.refl {α : Type} {P : α → Prop} (rows : List α) : Appends P rows rows :=
  ⟨[], (List.append_nil rows).symm, fun _ h => absurd h List.not_mem_nil⟩

theorem Appends.concat {α : Type} {P : α → Prop} {old rows : List α} (h : Appends P old rows) {row : α} (hrow : P row) :
    Appends P old (rows ++ [row]) := by
  obtain ⟨new, rfl, hnew⟩ := h
  refine ⟨new ++ [row], List.append_assoc _ _ _, fun r hr => ?_⟩
  rcases List.mem_append.mp hr with hr | hr
  · exact hnew r hr
  · exact List.mem_singleton.mp hr ▸ hrow

theorem seed_appends_privileges (now : Stamp) (s : Store) :
    Appends (fun p : Privilege => p.created = now ∧ p.updated = now) s.privileges (s.seed now).privileges := by
  refine seed_keeps (P := fun t => Appends _ s.privileges t.privileges) ?_ ?_ ?_ (.refl _)
  · intro t c ht
    unfold seedPrivilege
    split
    · exact ht
    · exact ht.concat ⟨rfl, rfl⟩
  · intro t c ht
    unfold seedRole
    split <;> exact ht
  · intro t names ht
    rw [seedMembership_privileges]
    exact ht

theorem seed_appends_roles (now : Stamp) (s : Store) :
    Appends (fun r : RoleRow => r.created = now ∧ r.updated = now) s.roles (s.seed now).roles := by
  refine seed_keeps (P := fun t => Appends _ s.roles t.roles) ?_ ?_ ?_ (.refl _)
  · intro t c ht
    unfold seedPrivilege
    split <;> exact ht
  · intro t c ht
    unfold seedRole
    split
    · exact ht
    · exact ht.concat ⟨rfl, rfl⟩
  · intro t names ht
    rw [seedMembership_roles]
    exact ht

/-- Of what is listed, the sorted texts without the taken names are the texts of what bears none of them. -/
theorem filter_map_sortedBy_perm {α β : Type} (name : α → String) (text : α → String × β)
    (hname : ∀ a, (text a).1 = name a) (items : List α) (taken : List String) :
    (((sortedBy name items).map text).filter fun row => row.1 ∉ taken).Perm
      ((items.filter fun a => name a ∉ taken).map text) := by
  rw [List.filter_map]
  simp only [Function.comp_def, hname]
  exact ((sortedBy_perm name items).filter _).map text

/-- What is there after seeding: every row as it was, for each name of the catalog that no row bore one new row with the
catalog's texts, and what the catalog gives to whom, by the names that the rows bear. -/
structure GainsCatalog (now : Stamp) (s t : Store) : Prop extends AgreesOffCatalog s t where
  privileges : ∃ new, t.privileges = s.privileges ++ new ∧ (∀ p ∈ new, p.created = now ∧ p.updated = now) ∧
    (new.map fun p => (p.name, p.description)).Perm
      ((Catalog.privileges.filter fun c => c.name ∉ s.privileges.map (·.name)).map catalogPrivilege)
  roles : ∃ new, t.roles = s.roles ++ new ∧ (∀ r ∈ new, r.created = now ∧ r.updated = now) ∧
    (new.map fun r => (r.name, r.description, r.builtin)).Perm
      ((Catalog.roles.filter fun c => c.name ∉ s.roles.map (·.name)).map catalogRole)
  memberships : ∀ m, m ∈ t.memberships ↔ m ∈ s.memberships ∨
    ∃ r ∈ t.roles, ∃ p ∈ t.privileges, Catalog.Grants r.name p.name ∧ m = ⟨r.id, p.id⟩
  memberships_nodup : t.memberships.Nodup

namespace GainsCatalog

variable (h : s.GainsCatalog now t)
include h

theorem mem_privileges {p : Privilege} (hp : p ∈ s.privileges) : p ∈ t.privileges := by
  obtain ⟨new, hrows, -⟩ := h.privileges
  exact hrows ▸ List.mem_append_left new hp

theorem mem_roles {r : RoleRow} (hr : r ∈ s.roles) : r ∈ t.roles := by
  obtain ⟨new, hrows, -⟩ := h.roles
  exact hrows ▸ List.mem_append_left new hr

theorem mem_memberships {r : RoleRow} (hr : r ∈ s.roles) {p : Privilege} (hp : p ∈ s.privileges)
    (hgrants : (r.name, p.name) ∈ Catalog.memberships) : Membership.mk r.id p.id ∈ t.memberships :=
  (h.memberships _).mpr
    (Or.inr ⟨r, h.mem_roles hr, p, h.mem_privileges hp, Catalog.mem_memberships_iff.mp hgrants, rfl⟩)

end GainsCatalog

theorem gainsCatalog_seed (hs : s.Sound) (now : Stamp) : GainsCatalog now s (s.seed now) where
  toAgreesOffCatalog := seed_frame now s
  privileges := by
    obtain ⟨new, hrows, hstamps⟩ := seed_appends_privileges now s
    have htexts := privilegeTexts_seed now s
    rw [privilegeTexts, hrows, List.map_append, privilegeTexts, List.append_cancel_left_eq] at htexts
    exact ⟨new, hrows, hstamps, htexts ▸ filter_map_sortedBy_perm _ catalogPrivilege (fun _ => rfl) _ _⟩
  roles := by
    obtain ⟨new, hrows, hstamps⟩ := seed_appends_roles now s
    have htexts := roleTexts_seed now s
    rw [roleTexts, hrows, List.map_append, roleTexts, List.append_cancel_left_eq] at htexts
    exact ⟨new, hrows, hstamps, htexts ▸ filter_map_sortedBy_perm _ catalogRole (fun _ => rfl) _ _⟩
  memberships := by
    rintro ⟨role, privilege⟩
    rw [Operation.mem_memberships_seed hs, or_comm]
    refine or_congr_right ?_
    simp only [Operation.Attaches, reduceCtorEq, false_and, false_or, true_and, Membership.mk.injEq]
    constructor
    · rintro ⟨r, hr, rfl, p, hp, rfl, hgrants⟩
      exact ⟨r, hr, p, hp, hgrants, rfl, rfl⟩
    · rintro ⟨r, hr, p, hp, hgrants, rfl, rfl⟩
      exact ⟨r, hr, rfl, p, hp, rfl, hgrants⟩
  memberships_nodup := (hs.changes seed_changes).memberships_nodup

/-! ## Seeding again -/

theorem seedMembership_of_mem {names : String × String} (h : ∀ m, s.Names m names → m ∈ s.memberships) :
    s.seedMembership names = s := by
  unfold seedMembership
  split
  · rename_i r p hrole hprivilege
    exact attach_of_mem (h _ ⟨r, hrole, p, hprivilege, rfl⟩)
  · rfl

/-- After seeding nothing is missing, so seeding again changes nothing. -/
theorem seed_seed (now later : Stamp) (s : Store) : (s.seed now).seed later = s.seed now := by
  have hprivilege : ∀ c ∈ sortedBy (·.name) Catalog.privileges, (s.seed now).seedPrivilege later c = s.seed now :=
    fun c hc => seedPrivilege_of_mem (hasPrivilegeNamed_seed ((sortedBy_perm _ _).mem_iff.mp hc) now s)
  have hrole : ∀ c ∈ sortedBy (·.name) Catalog.roles, (s.seed now).seedRole later c = s.seed now :=
    fun c hc => seedRole_of_mem (hasRoleNamed_seed ((sortedBy_perm _ _).mem_iff.mp hc) now s)
  have hmembership : ∀ names ∈ Catalog.memberships, (s.seed now).seedMembership names = s.seed now :=
    fun names hnames => seedMembership_of_mem fun m hm =>
      (mem_memberships_seed_iff now s).mpr (Or.inr ⟨names, hnames, hm⟩)
  obtain ⟨t, ht⟩ : ∃ t, s.seed now = t := ⟨_, rfl⟩
  rw [ht] at hprivilege hrole hmembership ⊢
  rw [seed_eq, foldl_eq_self hprivilege, foldl_eq_self hrole, foldl_eq_self hmembership]

end Store

namespace Engine

variable {e : Engine}

theorem run_seed (hfree : e.connection = .free) (now : Stamp) :
    e.run now .seed = (.ok .done, { e with store := e.store.seed now }) := by
  rw [run_eq_of_free hfree, Operation.run_seed]

/-- **Seeding brings what the catalog lacks there and nothing else.**  On a free connection it succeeds.  Whenever it
does, the tables have gained the catalog, and seeding again succeeds and changes nothing. -/
theorem seed_adds_catalog (h : Reachable e.store) (now : Stamp) :
    (e.connection = .free → ∃ e', e.run now .seed = (.ok .done, e')) ∧
    ∀ answer e', e.run now .seed = (.ok answer, e') →
      e.store.GainsCatalog now e'.store ∧ ∀ later, e'.run later .seed = (.ok .done, e') := by
  have hgains := Store.gainsCatalog_seed h.sound now
  have hagain := fun later => Store.seed_seed now later e.store
  have hseed : e.connection = .free → e.run now .seed = (.ok .done, { e with store := e.store.seed now }) :=
    fun hfree => run_seed hfree now
  obtain ⟨t, ht⟩ : ∃ t, e.store.seed now = t := ⟨_, rfl⟩
  rw [ht] at hgains hagain hseed
  refine ⟨fun hfree => ⟨_, hseed hfree⟩, fun answer e' hrun => ?_⟩
  obtain ⟨-, hfree⟩ := free_of_answer (congrArg Prod.fst hrun)
  obtain ⟨-, rfl⟩ := Prod.mk.inj ((hseed hfree).symm.trans hrun)
  refine ⟨hgains, fun later => ?_⟩
  have hrunAgain := run_seed (e := { e with store := t }) hfree later
  rwa [hagain] at hrunAgain

/-- A role that is called like one of the catalog and has a privilege of the house, and a privilege that is called like
one of the catalog. -/
def ownAuditor : History :=
  [.createRole "Auditor" (some "Reads the lab books"), .createPrivilege "Lab.Audit" none,
    .createPrivilege "Node.Audit" none, .addPrivilege (.issue .role 1) (.issue .privilege 1)].map fun op => (⟨"1"⟩, op)

/-- After seeding the role is as it was and has what the catalog's auditor has, but nobody else has the privilege of the
house. -/
theorem seed_adds_catalog_ownAuditor : ∃ e' : Engine,
    ({ store := Store.after {} ownAuditor } : Engine).run ⟨"2"⟩ .seed = (.ok .done, e') ∧
    ⟨.issue .role 1, "Auditor", some "Reads the lab books", false, ⟨"1"⟩, ⟨"1"⟩⟩ ∈ e'.store.roles ∧
    ⟨.issue .role 1, .issue .privilege 2⟩ ∈ e'.store.memberships ∧
    ∀ m ∈ e'.store.memberships, m.privilege = .issue .privilege 1 → m.role = .issue .role 1 := by
  have hreachable : Reachable (Store.after {} ownAuditor) := Reachable.empty.after ownAuditor
  obtain ⟨hsucceeds, hgains⟩ := seed_adds_catalog (e := { store := Store.after {} ownAuditor }) hreachable ⟨"2"⟩
  obtain ⟨e', hrun⟩ := hsucceeds rfl
  obtain ⟨hcatalog, -⟩ := hgains _ _ hrun
  have hauditor : (⟨.issue .role 1, "Auditor", some "Reads the lab books", false, ⟨"1"⟩, ⟨"1"⟩⟩ : RoleRow) ∈
      (Store.after {} ownAuditor).roles := by decide +kernel
  have hhouse : (⟨.issue .privilege 1, "Lab.Audit", none, ⟨"1"⟩, ⟨"1"⟩⟩ : Privilege) ∈
      (Store.after {} ownAuditor).privileges := by decide +kernel
  have hnode : (⟨.issue .privilege 2, "Node.Audit", none, ⟨"1"⟩, ⟨"1"⟩⟩ : Privilege) ∈
      (Store.after {} ownAuditor).privileges := by decide +kernel
  have hgiven := hcatalog.mem_memberships hauditor hnode (by decide +kernel)
  refine ⟨e', hrun, hcatalog.mem_roles hauditor, hgiven, fun m hm hid => ?_⟩
  rcases (hcatalog.memberships m).mp hm with hold | ⟨r, -, p, hp, hgrants, rfl⟩
  · exact (by decide +kernel : ∀ m ∈ (Store.after {} ownAuditor).memberships,
      m.privilege = .issue .privilege 1 → m.role = .issue .role 1) m hold hid
  · -- identifiers are unique, so this is the privilege of the house, which the catalog does not list
    have hsound : e'.store.Sound := by
      have hstep := (hreachable.step ⟨"2"⟩ .seed).sound
      rwa [← (run_free (e := { store := Store.after {} ownAuditor }) rfl).2, hrun] at hstep
    rw [hsound.privileges.eq_of_id_eq hp (hcatalog.mem_privileges hhouse) hid] at hgrants
    obtain ⟨-, -, -, -, listed, hlisted, hname⟩ := hgrants
    exact absurd hname ((by decide +kernel : ∀ c ∈ Catalog.privileges, c.name ≠ "Lab.Audit") listed hlisted)

end Engine

end ResourceAccess
