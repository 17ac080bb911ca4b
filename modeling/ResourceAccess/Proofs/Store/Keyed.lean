import Mathlib.Data.List.Nodup
import Mathlib.Data.List.Range
import ResourceAccess.Identifier

/-!
# Tables of keyed rows

All tables but the one of memberships are kept alike.  Their rows bear identifiers that were issued in turn, and next
to it a key of their own, such as a name, which no two rows share and which is sound.

* `Keyed.append`, `Keyed.filter`, `Keyed.map`, `Keyed.replace`: the four ways in which tables change keep this
* `Keyed.eq_of_id_eq`: an identifier belongs to one row
-/

namespace ResourceAccess

/-- The identifiers of a kind that have been issued, the first one first. -/
def Id.issuedUpTo (kind : Entity) (count : Nat) : List Id := (List.range count).map fun n => .issue kind (n + 1)

theorem Id.issuedUpTo_succ (kind : Entity) (count : Nat) :
    Id.issuedUpTo kind (count + 1) = Id.issuedUpTo kind count ++ [.issue kind (count + 1)] := by
  rw [issuedUpTo, List.range_succ, List.map_append]
  rfl

theorem Id.issuedUpTo_nodup (kind : Entity) (count : Nat) : (Id.issuedUpTo kind count).Nodup := by
  refine List.nodup_range.map fun m n h => ?_
  have hsucc := (issue_inj.mp h).2
  omega

section Identifiers

variable {α : Type} {id : α → Id} {rows : List α} {target : Id}

theorem map_id_replace {changed : α} (hid : id changed = target) :
    (rows.map fun r => if id r = target then changed else r).map id = rows.map id := by
  rw [List.map_map]
  refine List.map_congr_left fun r _ => ?_
  by_cases hr : id r = target
  · simp [hr, hid]
  · simp [hr]

theorem mem_ids_filter {x : Id} (hx : x ∈ rows.map id) (hne : x ≠ target) :
    x ∈ (rows.filter (id · != target)).map id := by
  obtain ⟨r, hr, rfl⟩ := List.mem_map.mp hx
  exact List.mem_map_of_mem (List.mem_filter.mpr ⟨hr, by simpa using hne⟩)

theorem find_key_eq_some {β : Type} [BEq β] [LawfulBEq β] {key : α → β} {k : β} {row : α}
    (h : rows.find? (key · == k) = some row) : row ∈ rows ∧ key row = k := by
  have hfits := List.find?_some h
  exact ⟨List.mem_of_find?_eq_some h, by simpa using hfits⟩

/-- Where no two rows share a key, a look-up finds every row by its key. -/
theorem find_key_eq_some_iff {β : Type} [BEq β] [LawfulBEq β] {key : α → β} (h : (rows.map key).Nodup) {k : β}
    {row : α} : rows.find? (key · == k) = some row ↔ row ∈ rows ∧ key row = k := by
  refine ⟨find_key_eq_some, ?_⟩
  rintro ⟨hrow, rfl⟩
  have hsome : (rows.find? (key · == key row)).isSome := List.find?_isSome.mpr ⟨row, hrow, beq_self_eq_true _⟩
  obtain ⟨found, hfound⟩ := Option.isSome_iff_exists.mp hsome
  obtain ⟨hmem, hkey⟩ := find_key_eq_some hfound
  rw [hfound, List.inj_on_of_nodup_map h hmem hrow hkey]

/-- Where no two rows share a key, at most one row fits a key. -/
theorem filter_key_eq_toList {β : Type} [BEq β] [LawfulBEq β] {key : α → β} (h : (rows.map key).Nodup) (k : β) :
    rows.filter (key · == k) = (rows.find? (key · == k)).toList := by
  induction rows with
  | nil => rfl
  | cons r rest ih =>
    obtain ⟨hr, hrest⟩ := List.nodup_cons.mp h
    by_cases hk : key r = k
    · have hnone : rest.filter (key · == k) = [] := by
        rw [List.filter_eq_nil_iff]
        intro r' hr' hk'
        exact hr (List.mem_map.mpr ⟨r', hr', (beq_iff_eq.mp hk').trans hk.symm⟩)
      simp [hk, hnone]
    · simp [hk, ih hrest]

end Identifiers

/-- The rows of a table bear identifiers in the order of issue, and keys that are sound and differ. -/
structure Keyed {α β : Type} (kind : Entity) (id : α → Id) (key : α → β) (sound : β → Prop) (count : Nat)
    (rows : List α) : Prop where
  ids_sublist : (rows.map id).Sublist (Id.issuedUpTo kind count)
  keys_nodup : (rows.map key).Nodup
  keys_sound : ∀ row ∈ rows, sound (key row)

namespace Keyed

variable {α β : Type} {kind : Entity} {id : α → Id} {key : α → β} {sound : β → Prop} {count : Nat}
  {rows : List α}

theorem empty : Keyed kind id key sound 0 ([] : List α) :=
  ⟨List.nil_sublist _, List.nodup_nil, fun _ h => absurd h (by simp)⟩

theorem ids_nodup (h : Keyed kind id key sound count rows) : (rows.map id).Nodup :=
  (Id.issuedUpTo_nodup kind count).sublist h.ids_sublist

theorem eq_of_id_eq (h : Keyed kind id key sound count rows) {a b : α} (ha : a ∈ rows) (hb : b ∈ rows)
    (hid : id a = id b) : a = b := List.inj_on_of_nodup_map h.ids_nodup ha hb hid

theorem eq_of_key_eq (h : Keyed kind id key sound count rows) {a b : α} (ha : a ∈ rows) (hb : b ∈ rows)
    (hkey : key a = key b) : a = b := List.inj_on_of_nodup_map h.keys_nodup ha hb hkey

theorem append (h : Keyed kind id key sound count rows) {row : α} (hid : id row = .issue kind (count + 1))
    (hsound : sound (key row)) (hnew : ∀ r ∈ rows, key r ≠ key row) :
    Keyed kind id key sound (count + 1) (rows ++ [row]) := by
  refine ⟨?_, ?_, ?_⟩
  · rw [List.map_append, List.map_singleton, hid, Id.issuedUpTo_succ]
    exact h.ids_sublist.append_right _
  · rw [List.map_append, List.map_singleton, List.nodup_append]
    refine ⟨h.keys_nodup, List.nodup_singleton _, ?_⟩
    intro k hk k' hk'
    obtain ⟨r, hr, rfl⟩ := List.mem_map.mp hk
    rw [List.mem_singleton.mp hk']
    exact hnew r hr
  · intro r hr
    rcases List.mem_append.mp hr with hr | hr
    · exact h.keys_sound r hr
    · rw [List.mem_singleton.mp hr]
      exact hsound

theorem filter (h : Keyed kind id key sound count rows) (p : α → Bool) :
    Keyed kind id key sound count (rows.filter p) where
  ids_sublist := (List.filter_sublist.map id).trans h.ids_sublist
  keys_nodup := h.keys_nodup.sublist (List.filter_sublist.map key)
  keys_sound := fun r hr => h.keys_sound r (List.mem_of_mem_filter hr)

/-- Rows may change in what is neither identifier nor key. -/
theorem map (h : Keyed kind id key sound count rows) {f : α → α} (hid : ∀ r, id (f r) = id r)
    (hkey : ∀ r, key (f r) = key r) : Keyed kind id key sound count (rows.map f) where
  ids_sublist := by
    rw [List.map_map, show id ∘ f = id from funext hid]
    exact h.ids_sublist
  keys_nodup := by
    rw [List.map_map, show key ∘ f = key from funext hkey]
    exact h.keys_nodup
  keys_sound := by
    intro r hr
    obtain ⟨old, hold, rfl⟩ := List.mem_map.mp hr
    rw [hkey]
    exact h.keys_sound old hold

/-- The row with an identifier may be replaced by one whose key no other row has. -/
theorem replace (h : Keyed kind id key sound count rows) {target : Id} {changed : α}
    (hid : id changed = target) (hsound : sound (key changed))
    (hnew : ∀ r ∈ rows, id r ≠ target → key r ≠ key changed) :
    Keyed kind id key sound count (rows.map fun r => if id r = target then changed else r) where
  ids_sublist := by
    rw [map_id_replace hid]
    exact h.ids_sublist
  keys_nodup := by
    have hids : rows.Pairwise fun a b => id a ≠ id b := List.pairwise_map.mp h.ids_nodup
    have hkeys : rows.Pairwise fun a b => key a ≠ key b := List.pairwise_map.mp h.keys_nodup
    refine List.pairwise_map.mpr (List.pairwise_map.mpr ?_)
    refine (hids.and hkeys).imp_of_mem ?_
    rintro a b ha hb ⟨hab, hkab⟩
    by_cases hat : id a = target
    · have hbt : id b ≠ target := fun hbt => hab (hat.trans hbt.symm)
      rw [if_pos hat, if_neg hbt]
      exact (hnew b hb hbt).symm
    · rw [if_neg hat]
      by_cases hbt : id b = target
      · rw [if_pos hbt]
        exact hnew a ha hat
      · rw [if_neg hbt]
        exact hkab
  keys_sound := by
    intro r hr
    obtain ⟨old, hold, rfl⟩ := List.mem_map.mp hr
    split
    · exact hsound
    · exact h.keys_sound old hold

end Keyed

end ResourceAccess
