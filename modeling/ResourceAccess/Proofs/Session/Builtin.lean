import ResourceAccess.Proofs.Session.Trace
import ResourceAccess.Proofs.Store.Lasting

/-!
# Built-in roles are permanent

A built-in role can neither be changed nor deleted, and two checks see to that.  Whatever happens to a session, such a
role stays what it is, its name stays its own, and no other role becomes built in.  The roles of the catalog are built
in from the time they are seeded, so their names are theirs from then on, unless a name was taken before.

* `Session.Guards`: what a session does for a built-in role
* `Session.guards_of_mem`: every session does it for its built-in roles
* `Session.builtin_permanent`: **it goes on to do so, whatever happens**
-/

namespace ResourceAccess

/-! ## On the tables -/

namespace Operation.Effect

variable {now : Stamp} {s : Store} {row : RoleRow} {reply : Reply}

theorem deleteRole_builtin (hs : s.Sound) (hrow : row ∈ s.roles) (hbuiltin : row.builtin = true)
    (h : Effect now s (.deleteRole row.id) reply) : reply = (.error (.builtinRole row.name), s) := by
  cases h with
  | read hread => exact absurd hread Bool.false_ne_true
  | deletedRoleAbsent habsent => exact absurd rfl (habsent row hrow)
  | deletedRoleBuiltin hrow' hid => rw [hs.roles.eq_of_id_eq hrow' hrow hid]
  | roleDeleted hrow' hid hcustom =>
    rw [hs.roles.eq_of_id_eq hrow' hrow hid, hbuiltin] at hcustom
    exact absurd hcustom (by simp)

theorem updateRole_builtin (hs : s.Sound) (hrow : row ∈ s.roles) (hbuiltin : row.builtin = true)
    {update : RoleUpdate} (h : Effect now s (.updateRole row.id update) reply) :
    reply = (.error (.builtinRole row.name), s) := by
  have hnot : ∀ r ∈ s.roles, r.id = row.id → r.builtin ≠ false := by
    intro r hr hid
    simp [hs.roles.eq_of_id_eq hr hrow hid, hbuiltin]
  cases h with
  | read hread => exact absurd hread Bool.false_ne_true
  | updatedRoleAbsent habsent => exact absurd rfl (habsent row hrow)
  | updatedRoleBuiltin hrow' hid => rw [hs.roles.eq_of_id_eq hrow' hrow hid]
  | newRoleNameTaken hrow' hid hcustom => exact absurd hcustom (hnot _ hrow' hid)
  | roleChanged hrow' hid hcustom => exact absurd hcustom (hnot _ hrow' hid)

theorem createRole_taken (hrow : row ∈ s.roles) {description : Option String}
    (h : Effect now s (.createRole row.name description) reply) :
    reply = (.error (.conflict .role row.name), s) := by
  cases h with
  | read hread => exact absurd hread Bool.false_ne_true
  | roleNameTaken => rfl
  | roleAdded hnew => exact absurd rfl (hnew row hrow)

/-- No role gets the name of a built-in one. -/
theorem updateRole_taken (hs : s.Sound) (hrow : row ∈ s.roles) (hbuiltin : row.builtin = true) {id : Id}
    {update : RoleUpdate} (hname : update.name = some row.name) (h : Effect now s (.updateRole id update) reply) :
    (∀ r, reply.1 ≠ .ok (.role r)) ∧ reply.2 = s := by
  cases h with
  | read hread => exact absurd hread Bool.false_ne_true
  | updatedRoleAbsent => exact ⟨by simp, rfl⟩
  | updatedRoleBuiltin => exact ⟨by simp, rfl⟩
  | newRoleNameTaken => exact ⟨by simp, rfl⟩
  | @roleChanged _ changed _ _ hrow' hid hcustom hnew =>
    have hgiven : (update.apply changed).name = row.name := by rw [RoleUpdate.apply, hname, Option.getD_some]
    by_cases hsame : row.id = id
    · rw [hs.roles.eq_of_id_eq hrow' hrow (hid.trans hsame.symm), hbuiltin] at hcustom
      exact absurd hcustom (by simp)
    · exact absurd hgiven.symm (hnew row hrow hsame)

end Operation.Effect

/-! ## Through the connection -/

namespace Session

theorem refuses_of_effect {s : Session} {op : Operation} {error : AccessError} (hfree : s.engine.connection = .free)
    (hfault : op.fault? = none)
    (h : ∀ now reply, op.Effect now s.engine.store reply → reply = (.error error, s.engine.store)) :
    s.Refuses op error :=
  refuses_of_run fun now => Engine.run_of_effect hfree hfault (h now)

/-- What a session does for a built-in role: the role is there as it was, refuses to be deleted and changed, and no
other role is or will be called so. -/
structure Guards (s : Session) (row : RoleRow) : Prop where
  present : ∃ r ∈ s.engine.store.roles, r.id = row.id ∧ r.name = row.name ∧ r.description = row.description ∧
    r.created = row.created ∧ r.builtin = true
  sole : ∀ r ∈ s.engine.store.roles, r.name = row.name → r.id = row.id
  deletion : s.engine.connection = .free → s.Refuses (.deleteRole row.id) (.builtinRole row.name)
  change : s.engine.connection = .free → ∀ update : RoleUpdate,
    (∀ name, update.name = some name → Text.isBlank name = false) →
      s.Refuses (.updateRole row.id update) (.builtinRole row.name)
  creation : s.engine.connection = .free → ∀ description,
    s.Refuses (.createRole row.name description) (.conflict .role row.name)
  takeover : ∀ now id (update : RoleUpdate), update.name = some row.name →
    (∀ r, (s.run now (.operation (.updateRole id update))).1 ≠ .ok (.role r)) ∧
      (s.run now (.operation (.updateRole id update))).2.engine = s.engine

variable {s : Session} {row : RoleRow}

theorem guards_of_mem (hs : s.engine.store.Sound) (hrow : row ∈ s.engine.store.roles) (hbuiltin : row.builtin = true) :
    s.Guards row where
  present := ⟨row, hrow, rfl, rfl, rfl, rfl, hbuiltin⟩
  sole := fun r hr hname => congrArg RoleRow.id (hs.roles.eq_of_key_eq hr hrow hname)
  deletion := fun hfree => refuses_of_effect hfree rfl fun _ _ h => h.deleteRole_builtin hs hrow hbuiltin
  change := by
    intro hfree update hname
    refine refuses_of_effect hfree ?_ fun _ _ h => h.updateRole_builtin hs hrow hbuiltin
    cases hgiven : update.name with
    | none => rw [Operation.fault?, hgiven, Option.bind_none]
    | some name => simp [Operation.fault?, hgiven, Operation.nameFault?, hname name hgiven]
  creation := by
    intro hfree description
    refine refuses_of_effect hfree ?_ fun _ _ h => h.createRole_taken hrow
    simp [Operation.fault?, Operation.nameFault?, hs.roles.keys_sound row hrow]
  takeover := by
    intro now id update hname
    simp only [run_operation_engine, ne_eq, run_operation_eq_ok]
    rcases s.engine.run_effect now (.updateRole id update) with ⟨error, hrun⟩ | ⟨answer, t, heffect, hrun⟩
    · rw [hrun]
      exact ⟨by simp, rfl⟩
    · obtain ⟨hnot, rfl⟩ := heffect.updateRole_taken hs hrow hbuiltin hname
      rw [hrun]
      exact ⟨hnot, rfl⟩

/-- What a session guards is a matter of the identifier, the name and what else a built-in role keeps. -/
theorem Guards.of_kept {r : RoleRow} (h : s.Guards r) (hid : r.id = row.id) (hname : r.name = row.name)
    (hdescription : r.description = row.description) (hcreated : r.created = row.created) : s.Guards row where
  present := by
    obtain ⟨r', hr', hid', hname', hdescription', hcreated', hbuiltin⟩ := h.present
    exact ⟨r', hr', hid'.trans hid, hname'.trans hname, hdescription'.trans hdescription, hcreated'.trans hcreated,
      hbuiltin⟩
  sole := hid ▸ hname ▸ h.sole
  deletion := hid ▸ hname ▸ h.deletion
  change := hid ▸ hname ▸ h.change
  creation := hname ▸ h.creation
  takeover := hname ▸ h.takeover

/-- Later tables of a session come after its tables of now. -/
theorem precedes_through (h : Reached s) (events : List (Stamp × Event)) :
    s.engine.store.Precedes (s.through events).engine.store := by
  rw [through_store h]
  exact Store.precedes_after h.store.sound _

/-- A built-in role is guarded for good. -/
theorem guards_through (h : Reached s) (hrow : row ∈ s.engine.store.roles) (hbuiltin : row.builtin = true)
    (events : List (Stamp × Event)) : (s.through events).Guards row := by
  obtain ⟨r, hr, hid, hname, hdescription, hcreated, hbuiltin'⟩ :=
    (precedes_through h events).builtin_row hrow hbuiltin
  exact (guards_of_mem (h.through events).store.sound hr hbuiltin').of_kept hid hname hdescription hcreated

theorem mem_roles_seed {now : Stamp} {c : Catalog.Role} (hc : c ∈ Catalog.roles)
    (hnew : ∀ row ∈ s.engine.store.roles, row.name ≠ c.name)
    (hseed : (s.run now (.operation .seed)).1 = .ok .done) :
    ∃ row ∈ (s.run now (.operation .seed)).2.engine.store.roles, row.name = c.name ∧ row.builtin = true := by
  have hstore : (s.run now (.operation .seed)).2.engine.store = s.engine.store.seed now := by
    rw [run_operation_engine]
    rcases s.engine.run_effect now .seed with ⟨error, hrun⟩ | ⟨answer, t, heffect, hrun⟩
    · rw [run_operation_eq_ok, hrun] at hseed
      exact absurd hseed (by simp)
    · have ht : t = s.engine.store.seed now := by
        cases heffect with
        | read hread => exact absurd hread Bool.false_ne_true
        | seeded => rfl
      rw [hrun, ht]
  rw [hstore]
  obtain ⟨row, hrow, hname⟩ := Store.hasRoleNamed_seed hc now s.engine.store
  rcases Store.builtin_of_mem_seed now s.engine.store row hrow with hold | hbuiltin
  · exact absurd hname (hnew row hold)
  · exact ⟨row, hrow, hname, hbuiltin⟩

/-- **Built-in roles are permanent.**  Whatever happens to a session, requests, set-ups and command lines alike, its
built-in roles stay guarded and its other roles do not become built in.  And where no role had a name of the catalog
when it was seeded, a built-in role has this name from then on. -/
theorem builtin_permanent (h : Reached s) :
    (∀ row ∈ s.engine.store.roles, row.builtin = true → ∀ events, (s.through events).Guards row) ∧
    (∀ row ∈ s.engine.store.roles, row.builtin = false → ∀ events, ∀ new ∈ (s.through events).engine.store.roles,
      new.id = row.id → new.builtin = false) ∧
    ∀ now, (s.run now (.operation .seed)).1 = .ok .done →
      (∀ c ∈ Catalog.roles, ∀ row ∈ s.engine.store.roles, row.name ≠ c.name) →
      ∀ c ∈ Catalog.roles, ∃ row ∈ (s.run now (.operation .seed)).2.engine.store.roles,
        row.name = c.name ∧ row.builtin = true ∧
          ∀ events, ((s.run now (.operation .seed)).2.through events).Guards row := by
  refine ⟨fun row hrow hbuiltin => guards_through h hrow hbuiltin, ?_, ?_⟩
  · intro row hrow hcustom events new hnew hid
    exact (precedes_through h events).custom_row h.store.sound hrow hcustom hnew hid
  · intro now hseed hnew c hc
    obtain ⟨row, hrow, hname, hbuiltin⟩ := mem_roles_seed hc (hnew c hc) hseed
    exact ⟨row, hrow, hname, hbuiltin, guards_through (h.run now (.operation .seed)) hrow hbuiltin⟩

def attempts (role : Id) : List (Stamp × Event) :=
  asking
    [(⟨"1"⟩, .deleteRole role), (⟨"2"⟩, .updateRole role { name := some "root" }), (⟨"3"⟩, .seed),
      (⟨"4"⟩, .removePrivilege role (.issue .privilege 1))]

/-- After them the administrator's role still cannot be deleted, and its name is still taken. -/
theorem builtin_permanent_administrator :
    ∃ row ∈ ((inMemory none).run ⟨"0"⟩ (.operation .seed)).2.engine.store.roles,
      row.name = Catalog.administrator ∧ row.builtin = true ∧
      (((inMemory none).run ⟨"0"⟩ (.operation .seed)).2.through (attempts row.id)).Refuses (.deleteRole row.id)
        (.builtinRole "Administrator") ∧
      (((inMemory none).run ⟨"0"⟩ (.operation .seed)).2.through (attempts row.id)).Refuses
        (.createRole "Administrator" none) (.conflict .role "Administrator") := by
  have hseed : ((inMemory none).run ⟨"0"⟩ (.operation .seed)).1 = .ok .done := by
    rw [run_operation_eq_ok, (Engine.run_free rfl).1, Operation.run_seed]
  obtain ⟨-, -, hcatalog⟩ := builtin_permanent (Reached.inMemory none)
  obtain ⟨row, hrow, hname, hbuiltin, hguards⟩ := hcatalog ⟨"0"⟩ hseed (fun _ _ _ h => absurd h List.not_mem_nil)
    ⟨Catalog.administrator, "Administrator role", .all⟩ List.mem_cons_self
  have hfree : (((inMemory none).run ⟨"0"⟩ (.operation .seed)).2.through (attempts row.id)).engine.connection =
      .free := by
    rw [attempts, through_asking_connection, run_operation_engine, Engine.run_connection]
    rfl
  have hdeletion := (hguards (attempts row.id)).deletion hfree
  have hcreation := (hguards (attempts row.id)).creation hfree none
  rw [hname] at hdeletion hcreation
  exact ⟨row, hrow, hname, hbuiltin, hdeletion, hcreation⟩

end Session

end ResourceAccess
