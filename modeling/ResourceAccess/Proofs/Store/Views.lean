import Mathlib.Data.Prod.Lex
import Mathlib.Data.String.Basic
import ResourceAccess.Proofs.Store.Candidates
import ResourceAccess.Proofs.Store.Seed

/-!
# Lists and look-ups

A list that is shown is a sorted copy of a table, and what it is sorted by tells its rows apart, so there is one such
copy only.  For the roles this settles that reading all attachments at once and dealing them out gives each role what
reading its own gives.  Entries are told apart by when they were made: an update leaves that alone, so the stamps of the
entries are the stamps of the operations that made them.

* `Store.Attached`: the privilege is among those that are read with the role
* `Store.roleList_eq`: the list of roles is made of the roles as they are read one by one
* `Store.aceList_pairwise`, `Store.aceAt_eq_find`: entries in the order of path and age
* `Store.created_sublist`: **entries bear the stamps of their making, in this order**
-/

namespace ResourceAccess

/-! ## Stamps in a line -/

namespace Stamp

theorem le_iff {a b : Stamp} : a ≤ b ↔ toLex (a.text.length, a.text) ≤ toLex (b.text.length, b.text) := by
  rw [Prod.Lex.toLex_le_toLex]
  rfl

instance : LinearOrder Stamp where
  le_refl _ := le_iff.mpr le_rfl
  le_trans _ _ _ hab hbc := le_iff.mpr ((le_iff.mp hab).trans (le_iff.mp hbc))
  le_antisymm a b hab hba := by
    have heq : toLex (a.text.length, a.text) = toLex (b.text.length, b.text) :=
      le_antisymm (le_iff.mp hab) (le_iff.mp hba)
    have htext : a.text = b.text := congrArg (fun x => (ofLex x).2) heq
    cases a
    cases b
    exact congrArg Stamp.mk htext
  le_total _ _ := (le_total _ _).imp le_iff.mpr le_iff.mpr
  toDecidableLE := inferInstance
  toDecidableEq := inferInstance

end Stamp

/-! ## Sorted copies -/

section Sorted

variable {α : Type} {items : List α}

theorem sortedBy_strict {key : α → String} (h : (items.map key).Nodup) :
    (sortedBy key items).Pairwise fun a b => key a < key b := by
  have hne : (sortedBy key items).Pairwise fun a b => key a ≠ key b :=
    List.pairwise_map.mp (((sortedBy_perm key items).map key).nodup_iff.mpr h)
  exact ((sortedBy_pairwise key items).and hne).imp fun hab => lt_of_le_of_ne hab.1 hab.2

theorem eq_of_ascending {κ : Type} [LinearOrder κ] (key : α → κ) {first second : List α}
    (hfirst : first.Pairwise fun a b => key a < key b) (hsecond : second.Pairwise fun a b => key a < key b)
    (hmem : ∀ a, a ∈ first ↔ a ∈ second) : first = second := by
  have hnodup : ∀ {items : List α}, items.Pairwise (fun a b => key a < key b) → items.Nodup := by
    intro items h
    exact h.imp fun hlt heq => absurd (congrArg key heq) hlt.ne
  have hperm : first.Perm second := (List.perm_ext_iff_of_nodup (hnodup hfirst) (hnodup hsecond)).mpr hmem
  exact hperm.eq_of_pairwise (fun _ _ _ _ hab hba => absurd hab hba.asymm) hfirst hsecond

end Sorted

namespace Store

variable {s : Store} {role privilege : Id}

/-! ## Roles -/

theorem Sound.role_eq_some (hs : s.Sound) {row : RoleRow} (hrow : row ∈ s.roles) :
    s.role? row.id = some (s.load row) := by
  have hfound : s.roleRow? row.id = some row := (find_key_eq_some_iff hs.roles.ids_nodup).mpr ⟨hrow, rfl⟩
  rw [role?, hfound, Option.map_some]

theorem Sound.roleNamed_eq_some (h : s.Sound) {row : RoleRow} (hrow : row ∈ s.roles) :
    s.roleNamed? row.name = some (s.load row) := by
  rw [roleNamed?, roleRowNamed?, (find_key_eq_some_iff h.roles.keys_nodup).mpr ⟨hrow, rfl⟩, Option.map_some]

/-- The privilege is among those that are read with the role. -/
def Attached (s : Store) (role privilege : Id) : Prop :=
  ∃ r, s.role? role = some r ∧ privilege ∈ r.privileges.map (·.id)

/-- What is read with a role is what its memberships say. -/
theorem Sound.attached_iff (hs : s.Sound) :
    s.Attached role privilege ↔ Membership.mk role privilege ∈ s.memberships := by
  constructor
  · rintro ⟨r, hr, hprivilege⟩
    obtain ⟨row, hrow, rfl⟩ := Option.map_eq_some_iff.mp hr
    obtain ⟨p, hp, rfl⟩ := List.mem_map.mp hprivilege
    obtain ⟨-, rfl⟩ := roleRow_eq_some hrow
    exact (mem_privilegesOf.mp hp).2
  · intro hmember
    obtain ⟨row, hrow, rfl⟩ := List.mem_map.mp (hs.membership_role _ hmember)
    obtain ⟨p, hp, rfl⟩ := List.mem_map.mp (hs.membership_privilege _ hmember)
    exact ⟨_, hs.role_eq_some hrow, List.mem_map_of_mem (mem_privilegesOf.mpr ⟨hp, hmember⟩)⟩

theorem privilegesOf_ascending (hs : s.Sound) (role : Id) :
    (s.privilegesOf role).Pairwise fun p q => p.name < q.name :=
  sortedBy_strict (hs.privileges.keys_nodup.sublist (List.filter_sublist.map _))

theorem mem_attachments {role : Id} {p : Privilege} :
    (role, p) ∈ s.attachments ↔ p ∈ s.privileges ∧ Membership.mk role p.id ∈ s.memberships := by
  rw [attachments, (sortedBy_perm _ _).mem_iff]
  simp only [List.mem_flatMap, List.mem_map, List.mem_filter, beq_iff_eq, Prod.mk.injEq]
  constructor
  · rintro ⟨⟨_, _⟩, hm, _, ⟨hp, rfl⟩, rfl, rfl⟩
    exact ⟨hp, hm⟩
  · rintro ⟨hp, hm⟩
    exact ⟨_, hm, p, ⟨hp, rfl⟩, rfl, rfl⟩

theorem attachments_nodup (hs : s.Sound) : s.attachments.Nodup := by
  refine (sortedBy_perm _ _).nodup_iff.mpr (List.nodup_flatMap.mpr ⟨?_, ?_⟩)
  · intro m _
    exact (hs.privileges.keys_nodup.of_map.filter _).map fun _ _ h => (Prod.mk.inj h).2
  · refine hs.memberships_nodup.imp ?_
    intro m m' hne entry hentry hentry'
    obtain ⟨p, hp, rfl⟩ := List.mem_map.mp hentry
    obtain ⟨p', hp', heq⟩ := List.mem_map.mp hentry'
    obtain ⟨hrole, rfl⟩ := Prod.mk.inj heq
    have hid : p'.id = m.privilege := by simpa using (List.mem_filter.mp hp).2
    have hid' : p'.id = m'.privilege := by simpa using (List.mem_filter.mp hp').2
    refine hne ?_
    cases m
    cases m'
    exact (Membership.mk.injEq ..).mpr ⟨hrole.symm, hid.symm.trans hid'⟩

/-- What a role is dealt out of all attachments is what is read of its own. -/
theorem attachments_dealt (hs : s.Sound) (role : Id) :
    (s.attachments.filter (·.1 == role)).map (·.2) = s.privilegesOf role := by
  have hmem : ∀ p, p ∈ (s.attachments.filter (·.1 == role)).map (·.2) ↔ p ∈ s.privilegesOf role := by
    intro p
    simp only [List.mem_map, List.mem_filter, beq_iff_eq, Prod.exists, mem_privilegesOf, ← mem_attachments]
    constructor
    · rintro ⟨_, _, ⟨hentry, rfl⟩, rfl⟩
      exact hentry
    · intro hentry
      exact ⟨role, p, ⟨hentry, rfl⟩, rfl⟩
  refine eq_of_ascending (·.name) ?_ (privilegesOf_ascending hs role) hmem
  -- the attachments are in order, and none of the role's occurs twice
  have horder : s.attachments.Pairwise fun a b => a.2.name ≤ b.2.name ∧ a ≠ b :=
    (sortedBy_pairwise _ _).and (attachments_nodup hs)
  refine List.pairwise_map.mpr ((horder.filter _).imp_of_mem ?_)
  rintro ⟨r, p⟩ ⟨r', q⟩ hentry hentry' ⟨hle, hne⟩
  obtain ⟨hp, hr⟩ := List.mem_filter.mp hentry
  obtain ⟨hq, hr'⟩ := List.mem_filter.mp hentry'
  have hroles : r = r' := (beq_iff_eq.mp hr).trans (beq_iff_eq.mp hr').symm
  refine lt_of_le_of_ne hle fun hname => hne (Prod.ext hroles ?_)
  exact hs.privileges.eq_of_key_eq (mem_attachments.mp hp).1 (mem_attachments.mp hq).1 hname

/-- The list of roles is made of the roles as they are read one by one. -/
theorem roleList_eq (hs : s.Sound) : s.roleList = (sortedBy (·.name) s.roles).map s.load := by
  refine List.map_congr_left fun row _ => ?_
  rw [attachments_dealt hs, load]

/-! ## Entries -/

theorem aceList_perm (s : Store) : s.aceList.Perm s.aces := sorted_perm _

theorem mem_aceList {a : Ace} : a ∈ s.aceList ↔ a ∈ s.aces := mem_sorted

section Age

variable (h : (s.aces.map (·.created)).Nodup)
include h

theorem created_ne : s.aceList.Pairwise fun a b => a.created ≠ b.created :=
  List.pairwise_map.mp (((aceList_perm s).map _).nodup_iff.mpr h)

/-- Entries are shown in the order of their paths, and at one path in the order of their making. -/
theorem aceList_pairwise :
    s.aceList.Pairwise fun a b => a.path.text < b.path.text ∨ a.path = b.path ∧ a.created < b.created := by
  refine ((sorted_thenBy_pairwise _ _ s.aces).and (created_ne h)).imp ?_
  rintro a b ⟨⟨hpath, holder⟩, hne⟩
  rcases hpath.lt_or_eq with hlt | heq
  · exact Or.inl hlt
  · exact Or.inr ⟨text_injective heq, lt_of_le_of_ne (holder heq) hne⟩

/-- The oldest entry at a path is the first one there that is shown. -/
theorem aceAt_eq_find (path : Path) : s.aceAt? path = s.aceList.find? (·.path == path) := by
  rw [aceAt?, ← List.head?_filter]
  refine congrArg List.head? (eq_of_ascending (·.created) ?_ ?_ ?_)
  · have hne : (sorted Ace.older (s.aces.filter (·.path == path))).Pairwise fun a b => a.created ≠ b.created :=
      List.pairwise_map.mp (((sorted_perm _).map _).nodup_iff.mpr (h.sublist (List.filter_sublist.map _)))
    exact ((sorted_thenBy_pairwise _ _ _).and hne).imp fun hab => lt_of_le_of_ne hab.1.1 hab.2
  · refine ((aceList_pairwise h).filter _).imp_of_mem ?_
    intro a b ha hb hab
    have hpath : a.path = path := by simpa using (List.mem_filter.mp ha).2
    have hpath' : b.path = path := by simpa using (List.mem_filter.mp hb).2
    rcases hab with hlt | ⟨-, hlt⟩
    · exact absurd hlt (by simp [hpath, hpath'])
    · exact hlt
  · intro a
    rw [mem_sorted, List.mem_filter, List.mem_filter, mem_aceList]

end Age

end Store

/-! ## When entries were made -/

def Operation.makesAce : Operation → Bool
  | .createAce _ => true
  | _ => false

theorem Operation.Effect.created_sublist {now : Stamp} {s : Store} {op : Operation} {reply : Reply} (hs : s.Sound)
    (h : op.Effect now s reply) :
    (reply.2.aces.map (·.created)).Sublist (s.aces.map (·.created) ++ if op.makesAce then [now] else []) := by
  have hfiltered : ∀ (p : Ace → Bool) (made : List Stamp),
      ((s.aces.filter p).map (·.created)).Sublist (s.aces.map (·.created) ++ made) := by
    intro p made
    exact (List.filter_sublist.map _).trans (List.sublist_append_left _ _)
  cases h with
  | userAbsent | userDeleted | groupAbsent | groupDeleted | roleDeleted => exact hfiltered _ _
  | aceAbsent | aceDeleted | purged | resourcePurged => exact hfiltered _ _
  | roleChanged _ _ _ _ ht | detached _ _ _ ht =>
    subst ht
    exact List.sublist_append_left _ _
  | attached _ _ _ hnew ht =>
    rw [Store.attach_of_not_mem hnew] at ht
    subst ht
    exact List.sublist_append_left _ _
  | seeded =>
    rw [(Store.seed_frame now s).aces]
    exact List.sublist_append_left _ _
  | aceAdded _ _ _ _ hace =>
    subst hace
    rw [List.map_append]
    exact List.Sublist.refl _
  | @aceChanged id row update hrow hid =>
    -- the row with the identifier is the one that was looked up, and an update leaves its making alone
    have hkept : (s.aces.map fun a => if a.id = id then { update.apply row with updated := now } else a).map
        (·.created) = s.aces.map (·.created) := by
      rw [List.map_map]
      refine List.map_congr_left fun a ha => ?_
      by_cases heq : a.id = id
      · obtain rfl := hs.aces.eq_of_id_eq ha hrow (heq.trans hid.symm)
        simp [heq, AceUpdate.apply]
      · simp [heq]
    rw [hkept]
    exact List.sublist_append_left _ _
  | _ => exact List.sublist_append_left _ _

theorem Operation.run_created {s : Store} (hs : s.Sound) (now : Stamp) (op : Operation) :
    ((op.run now s).2.aces.map (·.created)).Sublist (s.aces.map (·.created) ++ if op.makesAce then [now] else []) := by
  cases hfault : op.fault? with
  | some fault =>
    rw [run_of_fault hfault]
    exact List.sublist_append_left _ _
  | none =>
    rw [run_eq_perform hfault]
    exact (op.perform_effect now s).created_sublist hs

/-- **Entries bear the stamps of their making,** in this order. -/
theorem Store.created_sublist (history : History) :
    ((after {} history).aces.map (·.created)).Sublist ((history.filter (·.2.makesAce)).map (·.1)) := by
  induction history using List.reverseRecOn with
  | nil => exact List.Sublist.refl _
  | append_singleton history entry ih =>
    obtain ⟨now, op⟩ := entry
    rw [after_concat, List.filter_append, List.map_append]
    refine (Operation.run_created (sound_after history) now op).trans (ih.append ?_)
    cases hmakes : op.makesAce <;> simp [hmakes]

end ResourceAccess
