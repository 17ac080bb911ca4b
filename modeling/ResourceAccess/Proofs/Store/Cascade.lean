import ResourceAccess.Proofs.Store.Sound

/-!
# What a deletion takes along

Rows refer to rows by kind and identifier.  A deletion takes the row that bears a key, then what refers to that row,
then what refers to that, and so on.  In a sound store this ends after one step: what refers is not referred to.  The
deletions of the five kinds are five functions, and each takes exactly these rows.

* `Store.Cascade`: the rows that go with a key, as the least set
* `Store.goesWith_iff_cascade`: they bear the key or refer to it
* `Store.without_eq_self`: where no row bears the key, no row goes
* `Engine.delete_takes_cascade`: **a deletion takes them and nothing else**
-/

namespace ResourceAccess

inductive Row where
  | user (row : User)
  | group (row : Group)
  | role (row : RoleRow)
  | privilege (row : Privilege)
  | membership (row : Membership)
  | ace (row : Ace)
deriving DecidableEq

def Subject.key : Subject → Entity × Id
  | .user id => (.user, id)
  | .group id => (.group, id)

theorem Subject.eq_key_iff {kind : Entity} {id : Id} {subject : Subject} : (kind, id) = subject.key ↔
    kind = .user ∧ subject = .user id ∨ kind = .group ∧ subject = .group id := by
  cases subject with
  | user user => simp [key, eq_comm]
  | group group => simp [key, eq_comm]

namespace Row

/-- What other rows may refer to a row by. -/
def key? : Row → Option (Entity × Id)
  | .user u => some (.user, u.id)
  | .group g => some (.group, g.id)
  | .role r => some (.role, r.id)
  | .privilege p => some (.privilege, p.id)
  | .membership _ => none
  | .ace a => some (.ace, a.id)

def references : Row → List (Entity × Id)
  | .membership m => [(.role, m.role), (.privilege, m.privilege)]
  | .ace a => [a.subject.key, (.role, a.role)]
  | _ => []

/-- The row bears the key or refers to it. -/
def GoesWith (key : Entity × Id) (row : Row) : Prop := row.key? = some key ∨ key ∈ row.references

instance (key : Entity × Id) (row : Row) : Decidable (row.GoesWith key) := inferInstanceAs (Decidable (_ ∨ _))

theorem goesWith_iff {kind : Entity} {id : Id} {row : Row} : row.GoesWith (kind, id) ↔
    match row with
    | .user u => kind = .user ∧ u.id = id
    | .group g => kind = .group ∧ g.id = id
    | .role r => kind = .role ∧ r.id = id
    | .privilege p => kind = .privilege ∧ p.id = id
    | .membership m => kind = .role ∧ m.role = id ∨ kind = .privilege ∧ m.privilege = id
    | .ace a => kind = .ace ∧ a.id = id ∨ kind = .user ∧ a.subject = .user id ∨
        kind = .group ∧ a.subject = .group id ∨ kind = .role ∧ a.role = id := by
  cases row with
  | ace a => simp [GoesWith, key?, references, Subject.eq_key_iff, eq_comm, or_assoc]
  | _ => simp [GoesWith, key?, references, eq_comm]

end Row

/-- The operation that deletes the row of a kind with an identifier. -/
def Operation.delete : Entity → Id → Operation
  | .user, id => .deleteUser id
  | .group, id => .deleteGroup id
  | .role, id => .deleteRole id
  | .privilege, id => .deletePrivilege id
  | .ace, id => .deleteAce id

namespace Store

def rows (s : Store) : List Row :=
  s.users.map .user ++ s.groups.map .group ++ s.roles.map .role ++ s.privileges.map .privilege ++
    s.memberships.map .membership ++ s.aces.map .ace

def hasRow (s : Store) (key : Entity × Id) : Bool := s.rows.any (·.key? == some key)

/-- The rows that go when the row with the key goes: that row, and whatever refers to a row that goes. -/
inductive Cascade (s : Store) (key : Entity × Id) : Row → Prop
  | target {row : Row} (hrow : row ∈ s.rows) (hkey : row.key? = some key) : Cascade s key row
  | reference {above row : Row} {k : Entity × Id} (habove : Cascade s key above) (hkey : above.key? = some k)
      (hrow : row ∈ s.rows) (hrefers : k ∈ row.references) : Cascade s key row

/-- The store without the rows that bear the key or refer to it. -/
def without (s : Store) (key : Entity × Id) : Store :=
  { s with
    users := s.users.filter fun u => ¬ (Row.user u).GoesWith key
    groups := s.groups.filter fun g => ¬ (Row.group g).GoesWith key
    roles := s.roles.filter fun r => ¬ (Row.role r).GoesWith key
    privileges := s.privileges.filter fun p => ¬ (Row.privilege p).GoesWith key
    memberships := s.memberships.filter fun m => ¬ (Row.membership m).GoesWith key
    aces := s.aces.filter fun a => ¬ (Row.ace a).GoesWith key }

variable {s : Store} {kind : Entity} {id : Id} {key : Entity × Id}

/-! ## Rows and tables -/

theorem mem_rows_iff {row : Row} : row ∈ s.rows ↔
    match row with
    | .user u => u ∈ s.users
    | .group g => g ∈ s.groups
    | .role r => r ∈ s.roles
    | .privilege p => p ∈ s.privileges
    | .membership m => m ∈ s.memberships
    | .ace a => a ∈ s.aces := by
  cases row <;> simp [rows]

theorem hasRow_iff : s.hasRow (kind, id) = true ↔
    match kind with
    | .user => ∃ u ∈ s.users, u.id = id
    | .group => ∃ g ∈ s.groups, g.id = id
    | .role => ∃ r ∈ s.roles, r.id = id
    | .privilege => ∃ p ∈ s.privileges, p.id = id
    | .ace => ∃ a ∈ s.aces, a.id = id := by
  cases kind <;> simp [hasRow, rows, Row.key?]

theorem hasRow_eq_false_iff : s.hasRow (kind, id) = false ↔
    match kind with
    | .user => ∀ u ∈ s.users, u.id ≠ id
    | .group => ∀ g ∈ s.groups, g.id ≠ id
    | .role => ∀ r ∈ s.roles, r.id ≠ id
    | .privilege => ∀ p ∈ s.privileges, p.id ≠ id
    | .ace => ∀ a ∈ s.aces, a.id ≠ id := by
  cases kind <;> simp [hasRow, rows, Row.key?]

theorem rows_without (s : Store) (key : Entity × Id) :
    (s.without key).rows = s.rows.filter fun row => ¬ row.GoesWith key := by
  simp only [rows, without, List.filter_append, List.filter_map, Function.comp_def]

theorem hasRow_without (s : Store) (key : Entity × Id) : (s.without key).hasRow key = false := by
  rw [hasRow, rows_without, List.any_eq_false]
  intro row hrow hkey
  exact of_decide_eq_true (List.mem_filter.mp hrow).2 (Or.inl (beq_iff_eq.mp hkey))

/-! ## The rows that go -/

theorem Sound.hasRow_of_mem_references (h : s.Sound) {row : Row} (hrow : row ∈ s.rows)
    (hrefers : (kind, id) ∈ row.references) : s.hasRow (kind, id) = true := by
  rw [hasRow_iff]
  cases row with
  | membership m =>
    have hm : m ∈ s.memberships := mem_rows_iff.mp hrow
    have hkey : (kind, id) = (.role, m.role) ∨ (kind, id) = (.privilege, m.privilege) := by
      simpa [Row.references] using hrefers
    rcases hkey with hkey | hkey
    · obtain ⟨rfl, rfl⟩ := Prod.mk.inj hkey
      exact List.mem_map.mp (h.membership_role m hm)
    · obtain ⟨rfl, rfl⟩ := Prod.mk.inj hkey
      exact List.mem_map.mp (h.membership_privilege m hm)
  | ace a =>
    have ha : a ∈ s.aces := mem_rows_iff.mp hrow
    have hkey : (kind, id) = a.subject.key ∨ (kind, id) = (.role, a.role) := by
      simpa [Row.references] using hrefers
    rcases hkey with hkey | hkey
    · have hsubject := h.ace_subject a ha
      cases hs : a.subject with
      | user user =>
        rw [hs] at hkey hsubject
        obtain ⟨rfl, rfl⟩ := Prod.mk.inj hkey
        simpa [subjects] using hsubject
      | group group =>
        rw [hs] at hkey hsubject
        obtain ⟨rfl, rfl⟩ := Prod.mk.inj hkey
        simpa [subjects] using hsubject
    · obtain ⟨rfl, rfl⟩ := Prod.mk.inj hkey
      exact List.mem_map.mp (h.ace_role a ha)
  | _ => exact absurd hrefers List.not_mem_nil

/-- Nothing refers to a row that refers to something. -/
theorem not_mem_references {above row : Row} (hrefers : key ∈ above.references) (hkey : above.key? = some (kind, id)) :
    (kind, id) ∉ row.references := by
  cases above with
  | membership m => exact absurd hkey (by simp [Row.key?])
  | ace a =>
    obtain ⟨rfl, -⟩ := Prod.mk.inj (Option.some.inj hkey)
    cases row with
    | ace b => cases hb : b.subject <;> simp [Row.references, Subject.key, hb]
    | _ => simp [Row.references]
  | _ => exact absurd hrefers List.not_mem_nil

theorem Cascade.goesWith {row : Row} (h : s.Cascade key row) : row.GoesWith key := by
  induction h with
  | target hrow hkey => exact Or.inl hkey
  | reference habove hkey hrow hrefers ih =>
    rcases ih with htarget | hagain
    · rw [hkey] at htarget
      exact Or.inr (Option.some.inj htarget ▸ hrefers)
    · exact absurd hrefers (not_mem_references hagain hkey)

/-- **The rows that go are the row with the key and those that refer to it.** -/
theorem goesWith_iff_cascade (h : s.Sound) {row : Row} (hrow : row ∈ s.rows) :
    row.GoesWith key ↔ s.Cascade key row := by
  refine ⟨fun hgoes => ?_, Cascade.goesWith⟩
  rcases hgoes with hkey | hrefers
  · exact .target hrow hkey
  · obtain ⟨target, htarget, hkey⟩ := List.any_eq_true.mp (h.hasRow_of_mem_references hrow hrefers)
    exact .reference (.target htarget (beq_iff_eq.mp hkey)) (beq_iff_eq.mp hkey) hrow hrefers

theorem without_eq_self (h : s.Sound) (habsent : s.hasRow key = false) : s.without key = s := by
  have hstays : ∀ row ∈ s.rows, decide (¬ row.GoesWith key) = true := by
    intro row hrow
    rw [decide_eq_true_iff]
    intro hgoes
    refine absurd ?_ (Bool.eq_false_iff.mp habsent)
    rcases hgoes with hkey | hrefers
    · exact List.any_eq_true.mpr ⟨row, hrow, beq_iff_eq.mpr hkey⟩
    · exact h.hasRow_of_mem_references hrow hrefers
  rw [without, List.filter_eq_self.mpr fun u hu => hstays (.user u) (mem_rows_iff.mpr hu),
    List.filter_eq_self.mpr fun g hg => hstays (.group g) (mem_rows_iff.mpr hg),
    List.filter_eq_self.mpr fun r hr => hstays (.role r) (mem_rows_iff.mpr hr),
    List.filter_eq_self.mpr fun p hp => hstays (.privilege p) (mem_rows_iff.mpr hp),
    List.filter_eq_self.mpr fun m hm => hstays (.membership m) (mem_rows_iff.mpr hm),
    List.filter_eq_self.mpr fun a ha => hstays (.ace a) (mem_rows_iff.mpr ha)]

/-! ## The five deletions -/

theorem deleteUser_eq (id : Id) (s : Store) : (s.deleteUser id).2 = s.without (.user, id) := by
  simp [deleteUser, without, Row.goesWith_iff, bne, beq_eq_decide]

theorem deleteGroup_eq (id : Id) (s : Store) : (s.deleteGroup id).2 = s.without (.group, id) := by
  simp [deleteGroup, without, Row.goesWith_iff, bne, beq_eq_decide]

theorem deleteRole_eq (id : Id) (s : Store) :
    { s with
      roles := s.roles.filter (·.id != id)
      memberships := s.memberships.filter (·.role != id)
      aces := s.aces.filter (·.role != id) } = s.without (.role, id) := by
  simp [without, Row.goesWith_iff, bne, beq_eq_decide]

theorem deletePrivilege_eq (id : Id) (s : Store) : (s.deletePrivilege id).2 = s.without (.privilege, id) := by
  simp [deletePrivilege, without, Row.goesWith_iff, bne, beq_eq_decide]

theorem deleteAce_eq (id : Id) (s : Store) : (s.deleteAce id).2 = s.without (.ace, id) := by
  simp [deleteAce, without, Row.goesWith_iff, bne, beq_eq_decide]

end Store

/-! ## The operations -/

namespace Operation.Effect

variable {now : Stamp} {s : Store} {kind : Entity} {id : Id}

/-- A deletion that is not refused answers whether there was such a row, and leaves the rows that do not go with it. -/
theorem of_delete (hs : s.Sound) (hcustom : kind = .role → ∀ r ∈ s.roles, r.id = id → r.builtin = false)
    {reply : Reply} (h : Effect now s (delete kind id) reply) :
    reply = (.ok (.flag (s.hasRow (kind, id))), s.without (kind, id)) := by
  have hanswer : ∀ {existed : Bool} {t : Store}, s.hasRow (kind, id) = existed → t = s.without (kind, id) →
      ((.ok (.flag existed), t) : Reply) = (.ok (.flag (s.hasRow (kind, id))), s.without (kind, id)) := by
    rintro _ _ rfl rfl
    rfl
  cases kind with
  | user =>
    cases h with
    | read hread => exact absurd hread Bool.false_ne_true
    | userAbsent habsent => exact hanswer (Store.hasRow_eq_false_iff.mpr habsent) (Store.deleteUser_eq id s)
    | userDeleted hrow => exact hanswer (Store.hasRow_iff.mpr hrow) (Store.deleteUser_eq id s)
  | group =>
    cases h with
    | read hread => exact absurd hread Bool.false_ne_true
    | groupAbsent habsent => exact hanswer (Store.hasRow_eq_false_iff.mpr habsent) (Store.deleteGroup_eq id s)
    | groupDeleted hrow => exact hanswer (Store.hasRow_iff.mpr hrow) (Store.deleteGroup_eq id s)
  | role =>
    cases h with
    | read hread => exact absurd hread Bool.false_ne_true
    | deletedRoleAbsent habsent =>
      have hnone : s.hasRow (.role, id) = false := Store.hasRow_eq_false_iff.mpr habsent
      exact hanswer hnone (Store.without_eq_self hs hnone).symm
    | deletedRoleBuiltin hrow hid hbuiltin =>
      rw [hcustom rfl _ hrow hid] at hbuiltin
      exact absurd hbuiltin Bool.false_ne_true
    | roleDeleted hrow hid => exact hanswer (Store.hasRow_iff.mpr ⟨_, hrow, hid⟩) (Store.deleteRole_eq id s)
  | privilege =>
    cases h with
    | read hread => exact absurd hread Bool.false_ne_true
    | privilegeAbsent habsent => exact hanswer (Store.hasRow_eq_false_iff.mpr habsent) (Store.deletePrivilege_eq id s)
    | privilegeDeleted hrow => exact hanswer (Store.hasRow_iff.mpr hrow) (Store.deletePrivilege_eq id s)
  | ace =>
    cases h with
    | read hread => exact absurd hread Bool.false_ne_true
    | aceAbsent habsent => exact hanswer (Store.hasRow_eq_false_iff.mpr habsent) (Store.deleteAce_eq id s)
    | aceDeleted hrow => exact hanswer (Store.hasRow_iff.mpr hrow) (Store.deleteAce_eq id s)

end Operation.Effect

namespace Engine

variable {e : Engine}

theorem run_delete (hs : e.store.Sound) (hfree : e.connection = .free) (now : Stamp) (kind : Entity) (id : Id)
    (hcustom : kind = .role → ∀ r ∈ e.store.roles, r.id = id → r.builtin = false) :
    e.run now (.delete kind id) =
      (.ok (.flag (e.store.hasRow (kind, id))), { e with store := e.store.without (kind, id) }) := by
  have hfault : (Operation.delete kind id).fault? = none := by cases kind <;> rfl
  exact run_of_effect hfree hfault fun reply heffect => heffect.of_delete hs hcustom

/-- **A deletion takes its cascade and nothing else.**  Unless the row is a built-in role, the deletion on a free
connection answers whether there was a row of the kind with the identifier.  Of all rows those are gone that go with
this row, the others are as they were, and a second deletion finds nothing and changes nothing. -/
theorem delete_takes_cascade (hreachable : Reachable e.store) (hfree : e.connection = .free) (now later : Stamp)
    (kind : Entity) (id : Id) (hcustom : kind = .role → ∀ r ∈ e.store.roles, r.id = id → r.builtin = false) :
    (∀ row ∈ e.store.rows, row.GoesWith (kind, id) ↔ e.store.Cascade (kind, id) row) ∧
    ∃ existed after, (existed = true ↔ ∃ row ∈ e.store.rows, row.key? = some (kind, id)) ∧
      e.run now (.delete kind id) = (.ok (.flag existed), { e with store := after }) ∧
      after.rows = (e.store.rows.filter fun row => ¬ row.GoesWith (kind, id)) ∧ after.issued = e.store.issued ∧
      { e with store := after }.run later (.delete kind id) = (.ok (.flag false), { e with store := after }) := by
  have hrun := run_delete hreachable.sound hfree now kind id hcustom
  refine ⟨fun row hrow => Store.goesWith_iff_cascade hreachable.sound hrow, _, _, ?_, hrun,
    Store.rows_without _ _, rfl, ?_⟩
  · simp [Store.hasRow]
  · have hsound : (e.store.without (kind, id)).Sound := by
      have hstep := (hreachable.step now (.delete kind id)).sound
      rwa [← (run_free hfree).2, hrun] at hstep
    have hnone := e.store.hasRow_without (kind, id)
    have hagain := run_delete (e := { e with store := e.store.without (kind, id) }) hsound hfree later kind id ?_
    · rwa [hnone, Store.without_eq_self hsound hnone] at hagain
    · rintro rfl r hr hid
      exact absurd hid (Store.hasRow_eq_false_iff.mp hnone r hr)

def twoRolesHistory : History :=
  [.createUser "ann", .createGroup "ops", .createRole "operator" none, .createRole "auditor" none,
    .createPrivilege "Node.Console" none, .addPrivilege (.issue .role 1) (.issue .privilege 1),
    .addPrivilege (.issue .role 2) (.issue .privilege 1),
    .createAce (.forUser .root (.issue .user 1) (.issue .role 1)),
    .createAce (.forUser .root (.issue .user 1) (.issue .role 2)),
    .createAce (.forGroup .root (.issue .group 1) (.issue .role 1))].map fun op => (⟨""⟩, op)

/-- With a role go its membership and both of its entries, and the other role keeps what it has. -/
theorem delete_takes_cascade_twoRoles : ∃ after : Store,
    ({ store := Store.after {} twoRolesHistory } : Engine).run ⟨"1"⟩ (.deleteRole (.issue .role 1)) =
      (.ok (.flag true), { store := after }) ∧
    after.rows = [.user ⟨.issue .user 1, "ann", ⟨""⟩⟩, .group ⟨.issue .group 1, "ops", ⟨""⟩⟩,
      .role ⟨.issue .role 2, "auditor", none, false, ⟨""⟩, ⟨""⟩⟩,
      .privilege ⟨.issue .privilege 1, "Node.Console", none, ⟨""⟩, ⟨""⟩⟩,
      .membership ⟨.issue .role 2, .issue .privilege 1⟩,
      .ace ⟨.issue .ace 2, .root, .user (.issue .user 1), .issue .role 2, true, true, ⟨""⟩, ⟨""⟩⟩] ∧
    ({ store := after } : Engine).run ⟨"2"⟩ (.deleteRole (.issue .role 1)) =
      (.ok (.flag false), { store := after }) := by
  have hreachable : Reachable (Store.after {} twoRolesHistory) := Reachable.empty.after twoRolesHistory
  have hcustom : ∀ r ∈ (Store.after {} twoRolesHistory).roles, r.id = .issue .role 1 → r.builtin = false := by
    decide +kernel
  obtain ⟨-, existed, after, hexisted, hrun, hrows, -, hagain⟩ :=
    delete_takes_cascade (e := { store := Store.after {} twoRolesHistory }) hreachable rfl ⟨"1"⟩ ⟨"2"⟩ .role
      (.issue .role 1) fun _ => hcustom
  have htrue : existed = true := hexisted.mpr (by decide +kernel)
  exact ⟨after, htrue ▸ hrun, hrows.trans (by decide +kernel), hagain⟩

end Engine

end ResourceAccess
