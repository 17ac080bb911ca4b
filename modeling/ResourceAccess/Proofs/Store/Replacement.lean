import ResourceAccess.Proofs.Store.Direction
import ResourceAccess.Proofs.Store.Sound

/-!
# Updating an entry is replacing it

To update an entry and to delete it and make it anew are two programs.  The one looks at what is given, and trusts the
stored row for the rest; the other looks at everything, the subject included, which an update cannot change.  In a
sound store the rest is in order: the role and the subject of an entry are there, its path is a path, and what stands in
the way of the changed entry is another entry.  So the two refuse alike, and what they leave differs in identifiers and
stamps only, which no check reads.

* `Ace.content`: an entry without its identifier and stamps
* `Store.AlikeButIdentity`: tables with the same entries, up to these
* `Store.AlikeButIdentity.explain`: checks decide alike on such tables
* `Store.Sound.accept_replaced`: a new entry is refused for what the update is refused for
* `Engine.update_replaces`: **an update is a deletion and a making anew**
-/

namespace ResourceAccess

/-- What an entry says, without its identifier and its stamps. -/
def Ace.content (a : Ace) : Path × Subject × Id × Bool × Bool := (a.path, a.subject, a.role, a.allowed, a.propagates)

/-- The entry to make that says the same. -/
def NewAce.saying (a : Ace) : NewAce where
  path := a.path
  kind := a.subject.kind
  user := a.subject.user?
  group := a.subject.group?
  role := a.role
  allowed := some a.allowed
  propagates := some a.propagates

theorem NewAce.subject_saying (a : Ace) : (NewAce.saying a).subject? = some a.subject := by
  cases h : a.subject <;> simp [saying, subject?, h, Subject.kind, Subject.user?, Subject.group?]

namespace Store

/-- The stores have the same rows, but for the identifiers and the stamps of entries and the order in which they were
made. -/
structure AlikeButIdentity (s t : Store) : Prop where
  users : t.users = s.users
  groups : t.groups = s.groups
  roles : t.roles = s.roles
  privileges : t.privileges = s.privileges
  memberships : t.memberships = s.memberships
  aces : (t.aces.map Ace.content).Perm (s.aces.map Ace.content)

variable {s t : Store} {now : Stamp}

theorem AlikeButIdentity.symm (h : s.AlikeButIdentity t) : t.AlikeButIdentity s :=
  ⟨h.users.symm, h.groups.symm, h.roles.symm, h.privileges.symm, h.memberships.symm, h.aces.symm⟩

/-- Of every entry there is one in the other store that says the same. -/
theorem AlikeButIdentity.exists_relaxes (h : s.AlikeButIdentity t) {a : Ace} (ha : a ∈ s.aces) :
    ∃ b ∈ t.aces, b.Relaxes a ∧ a.Relaxes b := by
  obtain ⟨b, hb, hcontent⟩ := List.mem_map.mp (h.aces.mem_iff.mpr (List.mem_map_of_mem ha))
  simp only [Ace.content, Prod.mk.injEq] at hcontent
  obtain ⟨hpath, hsubject, hrole, hallowed, hpropagates⟩ := hcontent
  have hrule : b.rule = a.rule := by rw [Ace.rule, hpath, hallowed, hpropagates, Ace.rule]
  refine ⟨b, hb, ⟨hsubject, hrole, ?_⟩, ⟨hsubject.symm, hrole.symm, ?_⟩⟩
  · rw [hrule]
    exact (Ace.Relaxes.refl a).rule
  · rw [hrule]
    exact (Ace.Relaxes.refl a).rule

theorem AlikeButIdentity.relaxes (h : s.AlikeButIdentity t) : t.Relaxes s where
  memberships := h.memberships
  privileges := h.privileges
  allows := fun _ ha _ => (h.exists_relaxes ha).imp fun _ hb => ⟨hb.1, hb.2.1⟩
  denies := fun _ ha _ => (h.symm.exists_relaxes ha).imp fun _ hb => ⟨hb.1, hb.2.2⟩

/-- No check reads identifiers and stamps of entries. -/
theorem AlikeButIdentity.explain (h : s.AlikeButIdentity t) (user : Id) (path : Path) (privilege : String) :
    t.explain user path privilege = s.explain user path privilege := h.relaxes.explain h.symm.relaxes

/-! ## One entry -/

theorem perm_cons_filter {α : Type} {id : α → Id} {rows : List α} (hids : (rows.map id).Nodup) {row : α}
    (hrow : row ∈ rows) : rows.Perm (row :: rows.filter (id · != id row)) := by
  have hone : rows.filter (id · == id row) = [row] := by
    rw [filter_key_eq_toList hids, (find_key_eq_some_iff hids).mpr ⟨hrow, rfl⟩]
    rfl
  have hsplit := List.filter_append_perm (id · == id row) rows
  rw [hone] at hsplit
  exact hsplit.symm

/-- Changing a row is taking it away and adding the changed one, up to the order. -/
theorem map_replace_perm {α β : Type} {id : α → Id} {rows : List α} (hids : (rows.map id).Nodup) {row : α}
    (hrow : row ∈ rows) (changed : α) (content : α → β) :
    ((rows.map fun r => if id r = id row then changed else r).map content).Perm
      ((rows.filter (id · != id row)).map content ++ [content changed]) := by
  have hothers : (rows.filter (id · != id row)).map (fun r => if id r = id row then changed else r) =
      rows.filter (id · != id row) := by
    refine (List.map_congr_left fun r hr => if_neg ?_).trans (List.map_id _)
    simpa using (List.mem_filter.mp hr).2
  have hperm := ((perm_cons_filter hids hrow).map fun r => if id r = id row then changed else r).map content
  rw [List.map_cons, hothers, if_pos rfl, List.map_cons] at hperm
  exact hperm.trans (List.perm_append_singleton _ _).symm

variable {a : Ace}

/-- A new entry that says what the changed entry would say is accepted, once the old one is gone, exactly if the change
is, and is refused for the same reason. -/
theorem Sound.accept_replaced (hs : s.Sound) (ha : a ∈ s.aces) (update : AceUpdate) (now : Stamp) :
    (s.deleteAce a.id).2.accept (.saying (update.apply a)) =
      (s.acceptChange update { update.apply a with updated := now }).map fun _ => a.subject := by
  have hroles : (s.deleteAce a.id).2.roles = s.roles := rfl
  by_cases hgiven : ∀ role, update.role = some role → role ∈ s.roles.map (·.id)
  · have hrole : (NewAce.saying (update.apply a)).role ∈ (s.deleteAce a.id).2.roles.map (·.id) := by
      rw [hroles]
      cases hupdate : update.role with
      | none => simpa [NewAce.saying, AceUpdate.apply, hupdate] using hs.ace_role a ha
      | some role => simpa [NewAce.saying, AceUpdate.apply, hupdate] using hgiven role hupdate
    have hsubject : (update.apply a).subject ∈ (s.deleteAce a.id).2.subjects := hs.ace_subject a ha
    have haccept : (s.deleteAce a.id).2.accept (.saying (update.apply a)) =
        if ∃ b ∈ (s.deleteAce a.id).2.aces, b.key = (update.apply a).key then
          .error (.conflict .ace (update.apply a).path.text)
        else .ok a.subject := by
      rw [accept_eq hrole, NewAce.subject_saying]
      simp only [requireSubject_of_mem hsubject]
      rfl
    have hchange : s.acceptChange update { update.apply a with updated := now } =
        if ∃ b ∈ s.aces, b.id ≠ a.id ∧ b.key = (update.apply a).key then
          .error (.conflict .ace (update.apply a).path.text)
        else .ok () := acceptChange_eq hgiven
    -- what stands in the way of the change stands in the way of the new entry, as the old one is gone
    have hrival : (∃ b ∈ (s.deleteAce a.id).2.aces, b.key = (update.apply a).key) ↔
        ∃ b ∈ s.aces, b.id ≠ a.id ∧ b.key = (update.apply a).key := by simp [deleteAce, and_assoc]
    rw [haccept, hchange]
    by_cases htaken : ∃ b ∈ s.aces, b.id ≠ a.id ∧ b.key = (update.apply a).key
    · rw [if_pos htaken, if_pos (hrival.mpr htaken)]
      rfl
    · rw [if_neg htaken, if_neg (mt hrival.mp htaken)]
      rfl
  · obtain ⟨role, hupdate, habsent⟩ : ∃ role, update.role = some role ∧ role ∉ s.roles.map (·.id) := by
      simpa only [not_forall, exists_prop] using hgiven
    have hmissing : (NewAce.saying (update.apply a)).role = role := by
      simp [NewAce.saying, AceUpdate.apply, hupdate]
    rw [acceptChange_of_role_absent hupdate habsent, accept, hmissing, requireRole_eq, hroles, if_neg habsent]
    rfl

theorem Sound.updateAce_eq (hs : s.Sound) (ha : a ∈ s.aces) (update : AceUpdate) (now : Stamp) :
    s.updateAce now a.id update = (s.acceptChange update { update.apply a with updated := now }).map fun _ =>
      (some { update.apply a with updated := now },
        { s with aces := s.aces.map fun b => if b.id = a.id then { update.apply a with updated := now } else b }) := by
  have hfound : s.ace? a.id = some a := (find_key_eq_some_iff hs.aces.ids_nodup).mpr ⟨ha, rfl⟩
  rw [updateAce, hfound]
  dsimp only
  cases s.acceptChange update { update.apply a with updated := now } <;> rfl

def remade (s : Store) (a : Ace) (now : Stamp) : Ace :=
  { a with id := .issue .ace (s.issued.aces + 1), created := now, updated := now }

theorem Sound.createAce_replaced (hs : s.Sound) (ha : a ∈ s.aces) (update : AceUpdate) (now later : Stamp) :
    (s.deleteAce a.id).2.createAce later (.saying (update.apply a)) =
      (s.acceptChange update { update.apply a with updated := now }).map fun _ =>
        (s.remade (update.apply a) later,
          { s with
            aces := s.aces.filter (·.id != a.id) ++ [s.remade (update.apply a) later]
            issued := { s.issued with aces := s.issued.aces + 1 } }) := by
  rw [createAce, hs.accept_replaced ha update now]
  cases s.acceptChange update { update.apply a with updated := now } <;> rfl

theorem Sound.alike_replaced (hs : s.Sound) (ha : a ∈ s.aces) {changed made : Ace}
    (hcontent : made.content = changed.content) (issued : Issued) :
    AlikeButIdentity { s with aces := s.aces.map fun b => if b.id = a.id then changed else b }
      { s with aces := s.aces.filter (·.id != a.id) ++ [made], issued } where
  users := rfl
  groups := rfl
  roles := rfl
  privileges := rfl
  memberships := rfl
  aces := by
    rw [List.map_append, List.map_singleton, hcontent]
    exact (map_replace_perm hs.aces.ids_nodup ha changed Ace.content).symm

/-- The stored path is in order, so both look at the same fault of the input. -/
theorem Sound.fault_saying (hs : s.Sound) (ha : a ∈ s.aces) (update : AceUpdate) :
    (Operation.createAce (.saying (update.apply a))).fault? = (Operation.updateAce a.id update).fault? := by
  cases hpath : update.path with
  | none =>
    have hsound : a.path.fault? = none := hs.aces.keys_sound a ha
    simp [Operation.fault?, NewAce.saying, AceUpdate.apply, hpath, hsound]
  | some path => simp [Operation.fault?, NewAce.saying, AceUpdate.apply, hpath]

end Store

namespace Engine

variable {e : Engine} {a : Ace}

theorem run_deleteAce (hfree : e.connection = .free) (now : Stamp) (ha : a ∈ e.store.aces) :
    e.run now (.deleteAce a.id) = (.ok (.flag true), { e with store := (e.store.deleteAce a.id).2 }) := by
  refine run_of_effect hfree rfl fun reply heffect => ?_
  cases heffect with
  | read hread => exact absurd hread Bool.false_ne_true
  | aceAbsent habsent => exact absurd rfl (habsent a ha)
  | aceDeleted => rfl

theorem explain_alike {d : Engine} (hd : d.connection = .free) (he : e.connection = .free)
    (h : d.store.AlikeButIdentity e.store) (now : Stamp) (user : Id) (path : Path) (privilege : String) :
    ∃ decision, (d.run now (.explain user path privilege)).1 = .ok (.decision decision) ∧
      (e.run now (.explain user path privilege)).1 = .ok (.decision decision) :=
  ⟨_, run_explain hd now, (run_explain he now).trans (by rw [h.explain])⟩

/-- **Updating an entry is replacing it.**  On a free connection an update of an entry that is there succeeds exactly if
the entry can be deleted and one be made that says what the changed entry would say; if the one is refused, so is the
other, with the same error.  If they succeed, the tables differ in identifiers and stamps of entries at most, and all
checks decide alike. -/
theorem update_replaces (h : Reachable e.store) (hfree : e.connection = .free) (ha : a ∈ e.store.aces)
    (update : AceUpdate) (now earlier later : Stamp) :
    ∃ removed, e.run earlier (.deleteAce a.id) = (.ok (.flag true), removed) ∧
      ((∃ answer, (e.run now (.updateAce a.id update)).1 = .ok answer) ↔
        ∃ answer, (removed.run later (.createAce (.saying (update.apply a)))).1 = .ok answer) ∧
      (∀ error, (e.run now (.updateAce a.id update)).1 = .error error ↔
        (removed.run later (.createAce (.saying (update.apply a)))).1 = .error error) ∧
      ∀ answer answer' updated replaced, e.run now (.updateAce a.id update) = (.ok answer, updated) →
        removed.run later (.createAce (.saying (update.apply a))) = (.ok answer', replaced) →
        updated.store.AlikeButIdentity replaced.store ∧
        ∀ moment user path privilege, ∃ decision,
          (updated.run moment (.explain user path privilege)).1 = .ok (.decision decision) ∧
          (replaced.run moment (.explain user path privilege)).1 = .ok (.decision decision) := by
  have hs := h.sound
  refine ⟨_, run_deleteAce hfree earlier ha, ?_⟩
  rw [run_eq_of_free hfree, run_eq_of_free (e := { e with store := (e.store.deleteAce a.id).2 }) hfree]
  cases hfault : (Operation.updateAce a.id update).fault? with
  | some fault =>
    have hfault' := (hs.fault_saying ha update).trans hfault
    simp [Operation.run_of_fault hfault, Operation.run_of_fault hfault']
  | none =>
    have hfault' := (hs.fault_saying ha update).trans hfault
    rw [Operation.run_eq_perform hfault, Operation.run_eq_perform hfault', Operation.perform, Operation.perform,
      hs.updateAce_eq ha, hs.createAce_replaced ha update now]
    cases e.store.acceptChange update { update.apply a with updated := now } with
    | error error => simp [Except.map, Reply.ofOutcome]
    | ok =>
      have hcontent : (e.store.remade (update.apply a) later).content =
          { update.apply a with updated := now }.content := rfl
      have halike := hs.alike_replaced ha hcontent { e.store.issued with aces := e.store.issued.aces + 1 }
      simp only [Except.map, Reply.ofOutcome, Reply.write]
      refine ⟨iff_of_true ⟨_, rfl⟩ ⟨_, rfl⟩, fun error => iff_of_false (by simp) (by simp), ?_⟩
      intro answer answer' updated replaced hupdated hreplaced
      obtain ⟨-, rfl⟩ := Prod.mk.inj hupdated
      obtain ⟨-, rfl⟩ := Prod.mk.inj hreplaced
      exact ⟨halike, explain_alike hfree hfree halike⟩

def twoPlaces : History :=
  [.createUser "ann", .createRole "operator" none,
    .createAce (.forUser (.ofString "/labs") (.issue .user 1) (.issue .role 1)),
    .createAce (.forUser (.ofString "/nodes") (.issue .user 1) (.issue .role 1))].map fun op => (⟨"1"⟩, op)

def placed : Ace :=
  ⟨.issue .ace 1, .ofString "/labs", .user (.issue .user 1), .issue .role 1, true, true, ⟨"1"⟩, ⟨"1"⟩⟩

/-- The entry cannot be moved to where the other one is, nor be made anew there; turned into a denial it leaves what a
new denial leaves. -/
theorem update_replaces_twoPlaces :
    (∃ removed, ({ store := Store.after {} twoPlaces } : Engine).run ⟨"2"⟩ (.deleteAce (.issue .ace 1)) =
        (.ok (.flag true), removed) ∧
      (removed.run ⟨"3"⟩ (.createAce (.saying { placed with path := .ofString "/nodes" }))).1 =
        .error (.conflict .ace "/nodes")) ∧
    ∃ removed updated replaced answer answer',
      ({ store := Store.after {} twoPlaces } : Engine).run ⟨"2"⟩ (.deleteAce (.issue .ace 1)) =
        (.ok (.flag true), removed) ∧
      ({ store := Store.after {} twoPlaces } : Engine).run ⟨"2"⟩
        (.updateAce (.issue .ace 1) { allowed := some false }) = (.ok answer, updated) ∧
      removed.run ⟨"3"⟩ (.createAce (.saying { placed with allowed := false })) = (.ok answer', replaced) ∧
      updated.store.AlikeButIdentity replaced.store := by
  have hrules := fun update => update_replaces (e := { store := Store.after {} twoPlaces }) (a := placed)
    (Reachable.empty.after twoPlaces) rfl (by decide +kernel) update ⟨"2"⟩ ⟨"2"⟩ ⟨"3"⟩
  refine ⟨?_, ?_⟩
  · obtain ⟨removed, hremoved, -, herror, -⟩ := hrules { path := some (.ofString "/nodes") }
    exact ⟨removed, hremoved, (herror _).mp (by decide +kernel)⟩
  · obtain ⟨removed, hremoved, hok, -, halike⟩ := hrules { allowed := some false }
    have hupdated : (({ store := Store.after {} twoPlaces } : Engine).run ⟨"2"⟩
        (.updateAce (.issue .ace 1) { allowed := some false })).1 =
        .ok (.ace { placed with allowed := false, updated := ⟨"2"⟩ }) := by decide +kernel
    obtain ⟨answer', hreplaced⟩ := hok.mp ⟨_, hupdated⟩
    have hboth := halike _ answer' _ _ (Prod.ext hupdated rfl) (Prod.ext hreplaced rfl)
    exact ⟨removed, _, _, _, answer', hremoved, Prod.ext hupdated rfl, Prod.ext hreplaced rfl, hboth.1⟩

end Engine

end ResourceAccess
