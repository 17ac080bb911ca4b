import ResourceAccess.Proofs.Store.Sound

/-!
# What later tables have from earlier ones

Rows come, change and go, but an identifier that has been issued never comes back on another row.  So a row of a later
table that bears an old identifier is the row that bore it, with what such a row keeps for good.  A built-in role keeps
all but its privileges and the stamp of its last change, and it never goes.

* `Continues`: one table after another
* `Store.Precedes`: the tables of roles and privileges, and the built-in roles in particular
* `Store.Precedes.of_change`: **an elementary change leads to later tables**
* `Store.precedes_after`: hence so does every history
-/

namespace ResourceAccess

theorem Id.mem_issuedUpTo {kind : Entity} {count : Nat} {x : Id} :
    x ∈ Id.issuedUpTo kind count ↔ ∃ n < count, x = .issue kind (n + 1) := by
  simp only [issuedUpTo, List.mem_map, List.mem_range, eq_comm (a := x)]

theorem Id.issuedUpTo_mono {kind : Entity} {m n : Nat} (h : m ≤ n) {x : Id} (hx : x ∈ Id.issuedUpTo kind m) :
    x ∈ Id.issuedUpTo kind n := by
  obtain ⟨k, hk, rfl⟩ := mem_issuedUpTo.mp hx
  exact mem_issuedUpTo.mpr ⟨k, Nat.lt_of_lt_of_le hk h, rfl⟩

theorem Id.issue_succ_not_mem (kind : Entity) (count : Nat) :
    Id.issue kind (count + 1) ∉ Id.issuedUpTo kind count := by
  intro h
  obtain ⟨n, hn, heq⟩ := mem_issuedUpTo.mp h
  have hnumber := (issue_inj.mp heq).2
  omega

theorem Keyed.id_issued {α β : Type} {kind : Entity} {id : α → Id} {key : α → β} {sound : β → Prop} {count : Nat}
    {rows : List α} (h : Keyed kind id key sound count rows) {row : α} (hrow : row ∈ rows) :
    id row ∈ Id.issuedUpTo kind count := h.ids_sublist.subset (List.mem_map_of_mem hrow)

/-! ## One table -/

/-- A later state of a table.  A row with an identifier that had been issued is there from before, with what it
keeps. -/
structure Continues {α : Type} (kind : Entity) (id : α → Id) (keeps : α → α → Prop) (count later : Nat)
    (rows afterwards : List α) : Prop where
  issued_le : count ≤ later
  old : ∀ new ∈ afterwards, id new ∈ Id.issuedUpTo kind count → ∃ row ∈ rows, keeps row new

namespace Continues

variable {α : Type} {kind : Entity} {id : α → Id} {keeps : α → α → Prop} {count later : Nat} {rows afterwards : List α}

/-- Rows may go, and those that stay may change. -/
theorem of_forall (h : ∀ new ∈ afterwards, ∃ row ∈ rows, keeps row new) :
    Continues kind id keeps count count rows afterwards := ⟨Nat.le_refl count, fun new hnew _ => h new hnew⟩

theorem refl (hrefl : ∀ row, keeps row row) : Continues kind id keeps count count rows rows :=
  of_forall fun row hrow => ⟨row, hrow, hrefl row⟩

theorem filter (hrefl : ∀ row, keeps row row) (p : α → Bool) :
    Continues kind id keeps count count rows (rows.filter p) :=
  of_forall fun row hrow => ⟨row, List.mem_of_mem_filter hrow, hrefl row⟩

theorem map {f : α → α} (hf : ∀ row ∈ rows, keeps row (f row)) :
    Continues kind id keeps count count rows (rows.map f) := by
  refine of_forall fun new hnew => ?_
  obtain ⟨row, hrow, rfl⟩ := List.mem_map.mp hnew
  exact ⟨row, hrow, hf row hrow⟩

theorem append (hrefl : ∀ row, keeps row row) {row : α} (hid : id row = .issue kind (count + 1)) :
    Continues kind id keeps count (count + 1) rows (rows ++ [row]) := by
  refine ⟨Nat.le_succ count, fun new hnew hissued => ?_⟩
  rcases List.mem_append.mp hnew with hold | hlast
  · exact ⟨new, hold, hrefl new⟩
  · rw [List.mem_singleton.mp hlast, hid] at hissued
    exact absurd hissued (Id.issue_succ_not_mem kind count)

theorem trans {last : Nat} {final : List α} (hid : ∀ a b, keeps a b → id b = id a)
    (htrans : ∀ a b c, keeps a b → keeps b c → keeps a c) (h : Continues kind id keeps count later rows afterwards)
    (h' : Continues kind id keeps later last afterwards final) : Continues kind id keeps count last rows final := by
  refine ⟨Nat.le_trans h.issued_le h'.issued_le, fun new hnew hissued => ?_⟩
  obtain ⟨mid, hmid, hkept⟩ := h'.old new hnew (Id.issuedUpTo_mono h.issued_le hissued)
  rw [hid mid new hkept] at hissued
  obtain ⟨row, hrow, hkept'⟩ := h.old mid hmid hissued
  exact ⟨row, hrow, htrans row mid new hkept' hkept⟩

end Continues

/-! ## What rows keep -/

/-- What a role keeps for good: if it is built in, all but the stamp of its last change. -/
structure RoleRow.Keeps (old new : RoleRow) : Prop where
  id : new.id = old.id
  created : new.created = old.created
  builtin : new.builtin = old.builtin
  name : old.builtin = true → new.name = old.name
  description : old.builtin = true → new.description = old.description

namespace RoleRow.Keeps

theorem refl (r : RoleRow) : r.Keeps r := ⟨rfl, rfl, rfl, fun _ => rfl, fun _ => rfl⟩

theorem trans (a b c : RoleRow) (h : a.Keeps b) (h' : b.Keeps c) : a.Keeps c where
  id := h'.id.trans h.id
  created := h'.created.trans h.created
  builtin := h'.builtin.trans h.builtin
  name := fun hbuiltin => (h'.name (h.builtin.trans hbuiltin)).trans (h.name hbuiltin)
  description := fun hbuiltin => (h'.description (h.builtin.trans hbuiltin)).trans (h.description hbuiltin)

/-- Stamping a role leaves all the rest. -/
theorem stamped (r : RoleRow) (now : Stamp) : r.Keeps { r with updated := now } :=
  ⟨rfl, rfl, rfl, fun _ => rfl, fun _ => rfl⟩

theorem custom {r : RoleRow} (hcustom : r.builtin = false) (name : String) (description : Option String)
    (now : Stamp) : r.Keeps { r with name, description, updated := now } := by
  have hnot : r.builtin ≠ true := by simp [hcustom]
  exact ⟨rfl, rfl, rfl, fun hbuiltin => absurd hbuiltin hnot, fun hbuiltin => absurd hbuiltin hnot⟩

end RoleRow.Keeps

/-- What a privilege keeps for good. -/
structure Privilege.Keeps (old new : Privilege) : Prop where
  id : new.id = old.id
  created : new.created = old.created

theorem Privilege.Keeps.refl (p : Privilege) : p.Keeps p := ⟨rfl, rfl⟩

theorem Privilege.Keeps.trans (a b c : Privilege) (h : a.Keeps b) (h' : b.Keeps c) : a.Keeps c :=
  ⟨h'.id.trans h.id, h'.created.trans h.created⟩

/-! ## The tables of roles and privileges -/

namespace Store

/-- The second store comes after the first one, as far as roles and privileges tell. -/
structure Precedes (s t : Store) : Prop where
  roles : Continues .role RoleRow.id RoleRow.Keeps s.issued.roles t.issued.roles s.roles t.roles
  privileges : Continues .privilege Privilege.id Privilege.Keeps s.issued.privileges t.issued.privileges
    s.privileges t.privileges
  builtin : ∀ old ∈ s.roles, old.builtin = true → ∃ new ∈ t.roles, old.Keeps new

variable {now : Stamp} {s t u : Store}

namespace Precedes

/-- Nothing has happened to roles and privileges. -/
theorem of_same (hroles : t.roles = s.roles) (hprivileges : t.privileges = s.privileges)
    (hissuedRoles : t.issued.roles = s.issued.roles) (hissuedPrivileges : t.issued.privileges = s.issued.privileges) :
    s.Precedes t where
  roles := by
    rw [hroles, hissuedRoles]
    exact .refl RoleRow.Keeps.refl
  privileges := by
    rw [hprivileges, hissuedPrivileges]
    exact .refl Privilege.Keeps.refl
  builtin := fun old hold _ => ⟨old, hroles ▸ hold, .refl old⟩

theorem refl (s : Store) : s.Precedes s := of_same rfl rfl rfl rfl

theorem trans (h : s.Precedes t) (h' : t.Precedes u) : s.Precedes u where
  roles := h.roles.trans (fun _ _ hkept => hkept.id) RoleRow.Keeps.trans h'.roles
  privileges := h.privileges.trans (fun _ _ hkept => hkept.id) Privilege.Keeps.trans h'.privileges
  builtin := by
    intro old hold hbuiltin
    obtain ⟨mid, hmid, hkept⟩ := h.builtin old hold hbuiltin
    obtain ⟨new, hnew, hkept'⟩ := h'.builtin mid hmid (hkept.builtin.trans hbuiltin)
    exact ⟨new, hnew, .trans old mid new hkept hkept'⟩

theorem of_map {f : RoleRow → RoleRow} (hf : ∀ r ∈ s.roles, r.Keeps (f r)) :
    s.Precedes { s with roles := s.roles.map f } where
  roles := .map hf
  privileges := .refl Privilege.Keeps.refl
  builtin := fun old hold _ => ⟨f old, List.mem_map_of_mem hold, hf old hold⟩

/-- **An elementary change leads to later tables.** -/
theorem of_change (hs : s.Sound) (h : Change now s t) : s.Precedes t := by
  cases h with
  | addRole name description builtin hname hnew =>
    exact {
      roles := .append RoleRow.Keeps.refl rfl
      privileges := .refl Privilege.Keeps.refl
      builtin := fun old hold _ => ⟨old, List.mem_append_left _ hold, .refl old⟩ }
  | changeRole row name description hrow hcustom hname hnew =>
    refine of_map fun r hr => ?_
    by_cases hid : r.id = row.id
    · obtain rfl := hs.roles.eq_of_id_eq hr hrow hid
      rw [if_pos rfl]
      exact .custom hcustom name description now
    · rw [if_neg hid]
      exact .refl r
  | touchRole id =>
    refine of_map fun r _ => ?_
    split
    · exact .stamped r now
    · exact .refl r
  | removeRole row hrow hcustom =>
    refine ⟨.filter RoleRow.Keeps.refl _, .refl Privilege.Keeps.refl, fun old hold hbuiltin => ?_⟩
    have hother : old.id ≠ row.id := by
      intro hid
      rw [hs.roles.eq_of_id_eq hold hrow hid, hcustom] at hbuiltin
      exact absurd hbuiltin Bool.false_ne_true
    exact ⟨old, List.mem_filter.mpr ⟨hold, by simpa using hother⟩, .refl old⟩
  | addPrivilege name description hname hnew =>
    exact {
      roles := .refl RoleRow.Keeps.refl
      privileges := .append Privilege.Keeps.refl rfl
      builtin := fun old hold _ => ⟨old, hold, .refl old⟩ }
  | changePrivilege row name description hrow hname hnew =>
    refine ⟨.refl RoleRow.Keeps.refl, .map fun p hp => ?_, fun old hold _ => ⟨old, hold, .refl old⟩⟩
    by_cases hid : p.id = row.id
    · obtain rfl := hs.privileges.eq_of_id_eq hp hrow hid
      rw [if_pos rfl]
      exact ⟨rfl, rfl⟩
    · rw [if_neg hid]
      exact .refl p
  | removePrivilege id =>
    exact {
      roles := .refl RoleRow.Keeps.refl
      privileges := .filter Privilege.Keeps.refl _
      builtin := fun old hold _ => ⟨old, hold, .refl old⟩ }
  | attach role privilege =>
    unfold Store.attach
    split
    · exact refl s
    · exact of_same rfl rfl rfl rfl
  | _ => exact of_same rfl rfl rfl rfl

end Precedes

theorem Sound.changes (hs : s.Sound) (h : Changes now s t) : t.Sound := h.induction (fun _ _ hc hs => hs.change hc) hs

theorem Precedes.of_changes (hs : s.Sound) (h : Changes now s t) : s.Precedes t := by
  induction h with
  | refl => exact .refl s
  | tail hprior hlast ih => exact ih.trans (.of_change (hs.changes hprior) hlast)

/-- A history leads to later tables. -/
theorem precedes_after (hs : s.Sound) (history : History) : s.Precedes (s.after history) := by
  induction history generalizing s with
  | nil => exact .refl s
  | cons entry rest ih =>
    have hstep := entry.2.run_changes entry.1 s
    exact (Precedes.of_changes hs hstep).trans (ih (hs.changes hstep))

theorem Precedes.builtin_row (h : s.Precedes t) {old : RoleRow} (hold : old ∈ s.roles)
    (hbuiltin : old.builtin = true) : ∃ new ∈ t.roles, new.id = old.id ∧ new.name = old.name ∧
      new.description = old.description ∧ new.created = old.created ∧ new.builtin = true := by
  obtain ⟨new, hnew, hkept⟩ := h.builtin old hold hbuiltin
  exact ⟨new, hnew, hkept.id, hkept.name hbuiltin, hkept.description hbuiltin, hkept.created,
    hkept.builtin.trans hbuiltin⟩

/-- What bears the identifier of a custom role later is a custom role. -/
theorem Precedes.custom_row (hs : s.Sound) (h : s.Precedes t) {old new : RoleRow} (hold : old ∈ s.roles)
    (hcustom : old.builtin = false) (hnew : new ∈ t.roles) (hid : new.id = old.id) : new.builtin = false := by
  obtain ⟨row, hrow, hkept⟩ := h.roles.old new hnew (hid ▸ hs.roles.id_issued hold)
  rw [hkept.builtin, hs.roles.eq_of_id_eq hrow hold (hkept.id.symm.trans hid)]
  exact hcustom

end Store

end ResourceAccess
