import Mathlib.Data.List.Induction
import ResourceAccess.Sorted
import ResourceAccess.Store.Seed

/-!
# What seeding leaves and brings

Seeding is three folds over the catalog, for the privileges, the roles and the memberships.  What each of their steps
keeps, seeding keeps.

* `Store.seed_keeps`: the induction over all steps
* `Store.seed_frame`: users, groups and entries are left alone
* `Store.privilegeTexts_seed`, `Store.roleTexts_seed`: the rows that come are those whose names are not taken
* `Store.hasRoleNamed_seed`: every catalog role is there afterwards
* `Store.builtin_of_mem_seed`: and it is built in, unless its name was taken before
* `Store.mem_memberships_seed_iff`: what is attached afterwards
-/

namespace ResourceAccess.Store

variable {now : Stamp} {s t : Store}

theorem seed_eq (now : Stamp) (s : Store) : s.seed now = Catalog.memberships.foldl seedMembership
    ((sortedBy (·.name) Catalog.roles).foldl (seedRole now)
      ((sortedBy (·.name) Catalog.privileges).foldl (seedPrivilege now) s)) := rfl

theorem foldl_keeps {α : Type} {P : Store → Prop} {f : Store → α → Store} (hstep : ∀ s a, P s → P (f s a))
    (items : List α) (hs : P s) : P (items.foldl f s) :=
  List.foldlRecOn items f hs fun t ht a _ => hstep t a ht

/-- What every step of seeding keeps, seeding keeps. -/
theorem seed_keeps {P : Store → Prop} (hprivilege : ∀ s p, P s → P (s.seedPrivilege now p))
    (hrole : ∀ s r, P s → P (s.seedRole now r)) (hmembership : ∀ s names, P s → P (s.seedMembership names))
    (hs : P s) : P (s.seed now) := by
  rw [seed_eq]
  exact foldl_keeps hmembership _ (foldl_keeps hrole _ (foldl_keeps hprivilege _ hs))

theorem foldl_eq_self {α : Type} {f : Store → α → Store} {items : List α} (h : ∀ a ∈ items, f s a = s) :
    items.foldl f s = s :=
  List.foldlRecOn (motive := fun t => t = s) items f rfl fun t ht a ha => by rw [ht]; exact h a ha

/-! ## The tables that are not seeded -/

/-- The stores agree in the tables that seeding does not write. -/
structure AgreesOffCatalog (s t : Store) : Prop where
  users : t.users = s.users
  groups : t.groups = s.groups
  aces : t.aces = s.aces

theorem seed_frame (now : Stamp) (s : Store) : AgreesOffCatalog s (s.seed now) := by
  refine seed_keeps ?_ ?_ ?_ ⟨rfl, rfl, rfl⟩
  · intro t p ht
    unfold seedPrivilege
    split
    · exact ht
    · exact ⟨ht.users, ht.groups, ht.aces⟩
  · intro t r ht
    unfold seedRole
    split
    · exact ht
    · exact ⟨ht.users, ht.groups, ht.aces⟩
  · intro t names ht
    unfold seedMembership attach
    split
    · split
      · exact ht
      · exact ⟨ht.users, ht.groups, ht.aces⟩
    · exact ht

/-! ## The phases -/

theorem seedMembership_roles (s : Store) (names : String × String) : (s.seedMembership names).roles = s.roles := by
  unfold seedMembership attach
  split
  · split <;> rfl
  · rfl

theorem seedMembership_privileges (s : Store) (names : String × String) :
    (s.seedMembership names).privileges = s.privileges := by
  unfold seedMembership attach
  split
  · split <;> rfl
  · rfl

theorem foldl_seedMembership_roles (pairs : List (String × String)) (s : Store) :
    (pairs.foldl seedMembership s).roles = s.roles :=
  foldl_keeps (P := (·.roles = s.roles)) (fun t names ht => (seedMembership_roles t names).trans ht) pairs rfl

theorem foldl_seedMembership_privileges (pairs : List (String × String)) (s : Store) :
    (pairs.foldl seedMembership s).privileges = s.privileges :=
  foldl_keeps (P := (·.privileges = s.privileges)) (fun t names ht => (seedMembership_privileges t names).trans ht)
    pairs rfl

theorem foldl_seedRole_privileges (roles : List Catalog.Role) (s : Store) :
    (roles.foldl (seedRole now) s).privileges = s.privileges := by
  refine foldl_keeps (P := (·.privileges = s.privileges)) (fun t r ht => ?_) roles rfl
  unfold seedRole
  split <;> exact ht

theorem privileges_seed (now : Stamp) (s : Store) : (s.seed now).privileges =
    ((sortedBy (·.name) Catalog.privileges).foldl (seedPrivilege now) s).privileges := by
  rw [seed_eq, foldl_seedMembership_privileges, foldl_seedRole_privileges]

theorem roles_seed (now : Stamp) (s : Store) : (s.seed now).roles =
    ((sortedBy (·.name) Catalog.roles).foldl (seedRole now)
      ((sortedBy (·.name) Catalog.privileges).foldl (seedPrivilege now) s)).roles := by
  rw [seed_eq, foldl_seedMembership_roles]

theorem builtin_of_mem_seed (now : Stamp) (s : Store) : ∀ r ∈ (s.seed now).roles, r ∈ s.roles ∨ r.builtin = true := by
  refine seed_keeps (P := fun t => ∀ r ∈ t.roles, r ∈ s.roles ∨ r.builtin = true) ?_ ?_ ?_ fun r hr => Or.inl hr
  · intro t p ht
    unfold seedPrivilege
    split
    · exact ht
    · exact ht
  · intro t c ht
    unfold seedRole
    split
    · exact ht
    · intro r hr
      rcases List.mem_append.mp hr with hold | hnew
      · exact ht r hold
      · rw [List.mem_singleton.mp hnew]
        exact Or.inr rfl
  · intro t names ht
    rw [seedMembership_roles]
    exact ht

/-! ## Rows by their texts -/

/-- Where every step adds a row unless its name is taken, adding rows with different names adds in turn those whose
names were not taken at first. -/
theorem foldl_adds {α β : Type} (view : Store → List (String × β)) (shown : α → String × β) {step : Store → α → Store}
    (htaken : ∀ s a, (shown a).1 ∈ (view s).map Prod.fst → step s a = s)
    (hnew : ∀ s a, (shown a).1 ∉ (view s).map Prod.fst → view (step s a) = view s ++ [shown a])
    (items : List α) (hnames : (items.map fun a => (shown a).1).Nodup) :
    view (items.foldl step s) = view s ++ (items.map shown).filter fun row => row.1 ∉ (view s).map Prod.fst := by
  induction items generalizing s with
  | nil => simp
  | cons a rest ih =>
    obtain ⟨hfirst, hrest⟩ := List.nodup_cons.mp hnames
    rw [List.foldl_cons, ih hrest, List.map_cons]
    by_cases hname : (shown a).1 ∈ (view s).map Prod.fst
    · rw [htaken s a hname, List.filter_cons_of_neg (by simpa using hname)]
    · -- the names to come differ from the one that is added
      have hsame : (rest.map shown).filter (fun row => row.1 ∉ (view s ++ [shown a]).map Prod.fst) =
          (rest.map shown).filter fun row => row.1 ∉ (view s).map Prod.fst := by
        refine List.filter_congr fun row hrow => ?_
        have hne : row.1 ≠ (shown a).1 := by
          obtain ⟨b, hb, rfl⟩ := List.mem_map.mp hrow
          exact fun heq => hfirst (List.mem_map.mpr ⟨b, hb, heq⟩)
        simp [hne]
      rw [hnew s a hname, hsame, List.filter_cons_of_pos (by simpa using hname), List.append_assoc]
      rfl

def privilegeTexts (s : Store) : List (String × Option String) := s.privileges.map fun p => (p.name, p.description)

def roleTexts (s : Store) : List (String × Option String × Bool) :=
  s.roles.map fun r => (r.name, r.description, r.builtin)

def catalogPrivilege (c : Catalog.Privilege) : String × Option String := (c.name, some c.description)

def catalogRole (c : Catalog.Role) : String × Option String × Bool := (c.name, some c.description, true)

theorem privilegeTexts_names (s : Store) : s.privilegeTexts.map Prod.fst = s.privileges.map (·.name) := by
  simp [privilegeTexts]

theorem roleTexts_names (s : Store) : s.roleTexts.map Prod.fst = s.roles.map (·.name) := by
  simp [roleTexts]

def HasRoleNamed (s : Store) (name : String) : Prop := ∃ row ∈ s.roles, row.name = name

theorem seedRole_of_mem {r : Catalog.Role} (h : s.HasRoleNamed r.name) : s.seedRole now r = s := by
  rw [seedRole, if_pos (by simpa [HasRoleNamed] using h)]

theorem privilegeTexts_seedPrivilege (s : Store) (c : Catalog.Privilege) (hnew : c.name ∉ s.privileges.map (·.name)) :
    (s.seedPrivilege now c).privilegeTexts = s.privilegeTexts ++ [catalogPrivilege c] := by
  have hfree : ¬ s.privileges.any (·.name == c.name) = true := by simpa using hnew
  rw [seedPrivilege, if_neg hfree, privilegeTexts, insertPrivilege, List.map_append]
  rfl

theorem roleTexts_seedRole (s : Store) (c : Catalog.Role) (hnew : c.name ∉ s.roles.map (·.name)) :
    (s.seedRole now c).roleTexts = s.roleTexts ++ [catalogRole c] := by
  have hfree : ¬ s.roles.any (·.name == c.name) = true := by simpa using hnew
  rw [seedRole, if_neg hfree, roleTexts, insertRole, List.map_append]
  rfl

theorem roles_before_seedRole (now : Stamp) (s : Store) :
    ((sortedBy (·.name) Catalog.privileges).foldl (seedPrivilege now) s).roles = s.roles := by
  refine foldl_keeps (P := (·.roles = s.roles)) (fun t c ht => ?_) _ rfl
  unfold seedPrivilege
  split <;> exact ht

theorem catalogPrivileges_nodup : (Catalog.privileges.map (·.name)).Nodup := by decide +kernel

theorem catalogRoles_nodup : (Catalog.roles.map (·.name)).Nodup := by decide +kernel

/-- Seeding adds the catalog privileges whose names are not taken, in the order of their names. -/
theorem privilegeTexts_seed (now : Stamp) (s : Store) : (s.seed now).privilegeTexts = s.privilegeTexts ++
    ((sortedBy (·.name) Catalog.privileges).map catalogPrivilege).filter
      fun row => row.1 ∉ s.privileges.map (·.name) := by
  have hphase : (s.seed now).privilegeTexts =
      ((sortedBy (·.name) Catalog.privileges).foldl (seedPrivilege now) s).privilegeTexts :=
    congrArg (List.map _) (privileges_seed now s)
  rw [hphase, ← privilegeTexts_names]
  refine foldl_adds privilegeTexts catalogPrivilege ?_ ?_ _ ?_
  · intro t c hname
    rw [privilegeTexts_names] at hname
    exact seedPrivilege_of_mem (List.mem_map.mp hname)
  · intro t c hname
    rw [privilegeTexts_names] at hname
    exact privilegeTexts_seedPrivilege t c hname
  · exact ((sortedBy_perm _ _).map _).nodup_iff.mpr catalogPrivileges_nodup

/-- Seeding adds the catalog roles whose names are not taken, in the order of their names. -/
theorem roleTexts_seed (now : Stamp) (s : Store) : (s.seed now).roleTexts = s.roleTexts ++
    ((sortedBy (·.name) Catalog.roles).map catalogRole).filter fun row => row.1 ∉ s.roles.map (·.name) := by
  obtain ⟨t, ht⟩ : ∃ t, (sortedBy (·.name) Catalog.privileges).foldl (seedPrivilege now) s = t := ⟨_, rfl⟩
  have hroles : t.roles = s.roles := ht ▸ roles_before_seedRole now s
  have hphase : (s.seed now).roleTexts = ((sortedBy (·.name) Catalog.roles).foldl (seedRole now) t).roleTexts :=
    congrArg (List.map _) (ht ▸ roles_seed now s)
  have hsame : t.roleTexts = s.roleTexts := congrArg (List.map _) hroles
  rw [hphase, ← hsame, ← hroles, ← roleTexts_names]
  refine foldl_adds roleTexts catalogRole ?_ ?_ _ ?_
  · intro t c hname
    rw [roleTexts_names] at hname
    exact seedRole_of_mem (List.mem_map.mp hname)
  · intro t c hname
    rw [roleTexts_names] at hname
    exact roleTexts_seedRole t c hname
  · exact ((sortedBy_perm _ _).map _).nodup_iff.mpr catalogRoles_nodup

theorem name_mem_append_filter {β : Type} {names : List String} {rows : List (String × β)} {row : String × β}
    (hrow : row ∈ rows) : row.1 ∈ names ++ (rows.filter fun r => r.1 ∉ names).map Prod.fst := by
  by_cases htaken : row.1 ∈ names
  · exact List.mem_append_left _ htaken
  · exact List.mem_append_right _ (List.mem_map_of_mem (List.mem_filter.mpr ⟨hrow, by simpa using htaken⟩))

theorem hasPrivilegeNamed_seed {c : Catalog.Privilege} (hc : c ∈ Catalog.privileges) (now : Stamp) (s : Store) :
    ∃ p ∈ (s.seed now).privileges, p.name = c.name := by
  have hsorted : c ∈ sortedBy (·.name) Catalog.privileges := (sortedBy_perm _ _).mem_iff.mpr hc
  rw [← List.mem_map (f := Privilege.name), ← privilegeTexts_names, privilegeTexts_seed, List.map_append,
    privilegeTexts_names]
  exact name_mem_append_filter (List.mem_map_of_mem (f := catalogPrivilege) hsorted)

theorem hasRoleNamed_seed {r : Catalog.Role} (hr : r ∈ Catalog.roles) (now : Stamp) (s : Store) :
    (s.seed now).HasRoleNamed r.name := by
  have hsorted : r ∈ sortedBy (·.name) Catalog.roles := (sortedBy_perm _ _).mem_iff.mpr hr
  rw [HasRoleNamed, ← List.mem_map (f := RoleRow.name), ← roleTexts_names, roleTexts_seed, List.map_append,
    roleTexts_names]
  exact name_mem_append_filter (List.mem_map_of_mem (f := catalogRole) hsorted)

/-! ## Memberships -/

/-- The rows that a pair of names leads to give this membership. -/
def Names (s : Store) (m : Membership) (names : String × String) : Prop :=
  ∃ r, s.roleRowNamed? names.1 = some r ∧ ∃ p, s.privilegeNamed? names.2 = some p ∧ m = ⟨r.id, p.id⟩

theorem mem_attach_iff {m : Membership} {role privilege : Id} :
    m ∈ (s.attach role privilege).memberships ↔ m ∈ s.memberships ∨ m = ⟨role, privilege⟩ := by
  by_cases hmember : Membership.mk role privilege ∈ s.memberships
  · rw [attach_of_mem hmember]
    refine ⟨Or.inl, ?_⟩
    rintro (hm | rfl)
    · exact hm
    · exact hmember
  · have hnot : ¬ s.memberships.contains ⟨role, privilege⟩ = true := by simpa using hmember
    rw [attach, if_neg hnot, List.mem_append, List.mem_singleton]

theorem mem_seedMembership_iff {m : Membership} {names : String × String} :
    m ∈ (s.seedMembership names).memberships ↔ m ∈ s.memberships ∨ s.Names m names := by
  unfold seedMembership Names
  cases hrole : s.roleRowNamed? names.1 with
  | none => simp
  | some r =>
    cases hprivilege : s.privilegeNamed? names.2 with
    | none => simp
    | some p => simp [mem_attach_iff]

theorem mem_foldl_seedMembership_iff {m : Membership} (pairs : List (String × String)) (s : Store) :
    m ∈ (pairs.foldl seedMembership s).memberships ↔ m ∈ s.memberships ∨ ∃ names ∈ pairs, s.Names m names := by
  induction pairs generalizing s with
  | nil => simp
  | cons first rest ih =>
    have hnames : ∀ names, (s.seedMembership first).Names m names ↔ s.Names m names := by
      intro names
      rw [Names, roleRowNamed?, privilegeNamed?, seedMembership_roles, seedMembership_privileges]
      rfl
    rw [List.foldl_cons, ih, mem_seedMembership_iff]
    simp only [hnames, List.mem_cons, exists_eq_or_imp, or_assoc]

theorem memberships_before_seedMembership (now : Stamp) (s : Store) :
    ((sortedBy (·.name) Catalog.roles).foldl (seedRole now)
      ((sortedBy (·.name) Catalog.privileges).foldl (seedPrivilege now) s)).memberships = s.memberships := by
  refine foldl_keeps (P := fun t => t.memberships = s.memberships) (fun t r ht => ?_) _
    (foldl_keeps (P := fun t => t.memberships = s.memberships) (fun t p ht => ?_) _ rfl)
  · unfold seedRole
    split <;> exact ht
  · unfold seedPrivilege
    split <;> exact ht

/-- Seeding attaches what the catalog names, and nothing else. -/
theorem mem_memberships_seed_iff {m : Membership} (now : Stamp) (s : Store) : m ∈ (s.seed now).memberships ↔
    m ∈ s.memberships ∨ ∃ names ∈ Catalog.memberships, (s.seed now).Names m names := by
  rw [seed_eq, ← memberships_before_seedMembership now s, mem_foldl_seedMembership_iff]
  simp only [Names, roleRowNamed?, privilegeNamed?, foldl_seedMembership_roles, foldl_seedMembership_privileges]

end ResourceAccess.Store
