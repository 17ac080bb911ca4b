import ResourceAccess.Path.Valid
import ResourceAccess.Proofs.Path.Subtree

/-!
# The order of paths

A path can be placed below another in two ways: the other is one of its levels, or it is within the other.  They differ
in trailing slashes only.  A region does not care for the slashes of its top, and levels come as they are written.  So a
path is within another exactly when the other's top, which is what is left without the slashes, is one of its levels.
What is known of levels then says that being within is the order of a tree.

* `isWithin_iff_top_mem_levels`: **regions in terms of levels**
* `ancestry_agrees`: both ways agree on paths that do not end in a slash, and on the root
* `isWithin_tree_order`: **being within is a tree order**
-/

namespace ResourceAccess.Path

variable {p q a b c : Path}

/-! ## The top of a region -/

theorem subtree_top (q : Path) : q.subtree.top = ofPrefix q.base := by
  cases hb : q.base with
  | nil => simp [subtree, hb]
  | cons d ds => simp [subtree, hb, ofPrefix]

/-- A path that does not end in a slash is the top of its region, and so is the root. -/
theorem subtree_top_eq_self (hne : q.chars ≠ []) (h : q = root ∨ q.chars.getLast? ≠ some '/') :
    q.subtree.top = q := by
  rcases h with rfl | hlast
  · rfl
  · have hbase : q.base = q.chars := by simpa using base_append_slashes hlast 0
    rw [subtree_top, hbase, ofPrefix_of_ne_nil hne]

theorem ofPrefix_base_injective (h : ofPrefix a.base = ofPrefix b.base) : a.base = b.base := by
  have hroot : ∀ {x y : Path}, ofPrefix x.base = ofPrefix y.base → x.base = [] → y.base = [] := by
    intro x y hxy hx
    by_contra hy
    rw [hx, ofPrefix_nil, ofPrefix_of_ne_nil hy, root, mk.injEq] at hxy
    exact base_getLast_ne y (by rw [← hxy]; rfl)
  by_cases ha : a.base = []
  · rw [ha, hroot h ha]
  · have hb : b.base ≠ [] := fun hb => ha (hroot h.symm hb)
    rw [ofPrefix_of_ne_nil ha, ofPrefix_of_ne_nil hb, mk.injEq] at h
    exact h

/-- **A path is within another exactly when the top of the other's region is one of its levels.** -/
theorem isWithin_iff_top_mem_levels (hp : p.chars ≠ []) : p.isWithin q = true ↔ q.subtree.top ∈ p.levels := by
  rw [subtree_top]
  by_cases hb : q.base = []
  · rw [isWithin_of_base_nil hb, hb, ofPrefix_nil, root_mem_levels_iff, or_iff_left hp]
  · rw [isWithin_iff_of_base_ne_nil hb, mem_levels_iff hp, ofPrefix_of_ne_nil hb]
    refine or_congr ⟨fun h => ?_, fun h => ?_⟩ ⟨?_, ?_⟩
    · rw [← h]
    · rw [← h]
    · rintro ⟨rest, hrest⟩
      exact ⟨q.base, rest, hrest, (ofPrefix_of_ne_nil hb).symm⟩
    · rintro ⟨above, rest, hrest, hlevel⟩
      have hcut : above = q.base := by
        by_cases hnil : above = []
        · -- the root would be a text that ends in a slash
          rw [hnil, ofPrefix_nil, root, mk.injEq] at hlevel
          exact absurd (by rw [hlevel]; rfl) (base_getLast_ne q)
        · rw [ofPrefix_of_ne_nil hnil, mk.injEq] at hlevel
          exact hlevel.symm
      exact ⟨rest, hcut ▸ hrest⟩

theorem isWithin_self (hp : p.chars ≠ []) : p.isWithin p = true := by
  obtain ⟨n, hn⟩ := p.chars_eq_base_append
  by_cases hb : p.base = []
  · rw [isWithin_of_base_nil hb, isRooted_iff]
    cases n with
    | zero => exact absurd (by rw [hn, hb]; rfl) hp
    | succ n => exact ⟨List.replicate n '/', by rw [hn, hb, List.nil_append, List.replicate_succ]⟩
  · rw [isWithin_iff_of_base_ne_nil hb]
    cases n with
    | zero => exact Or.inl (by rw [hn, List.replicate_zero, List.append_nil])
    | succ n => exact Or.inr ⟨List.replicate n '/', by rw [← List.replicate_succ]; exact hn⟩

/-! ## What levels keep of a path -/

theorem byteLength_le_byteLength (h : q.chars <+: p.chars) : q.byteLength ≤ p.byteLength := by
  obtain ⟨rest, hrest⟩ := h
  rw [byteLength, byteLength, ← hrest, List.foldr_append]
  induction q.chars with
  | nil => exact Nat.zero_le _
  | cons d ds ih => exact Nat.add_le_add_left ih _

theorem fault_of_mem_levels (hp : p.fault? = none) (h : q ∈ p.levels) : q.fault? = none := by
  obtain ⟨hrooted, hlength, hplain⟩ := fault_eq_none_iff.mp hp
  have hne : p.chars ≠ [] := by
    obtain ⟨rest, hrest⟩ := isRooted_iff.mp hrooted
    simp [hrest]
  have hstart := prefix_of_mem_levels hne h
  refine fault_eq_none_iff.mpr ⟨?_, ?_, fun c hc => hplain c (hstart.subset hc)⟩
  · rw [isRooted_of_mem_levels hne h, hrooted]
  · exact Nat.le_trans (byteLength_le_byteLength hstart) hlength

/-- **Levels and regions are one ancestry.**  A path is within each of its levels, and if it is within a path that is
the root or does not end in a slash, this is one of its levels.  What may stand at a path may stand at its levels. -/
theorem ancestry_agrees :
    (∀ p q : Path, p.chars ≠ [] → q ∈ p.levels → p.isWithin q = true) ∧
    (∀ p q : Path, q.chars ≠ [] → q = root ∨ q.chars.getLast? ≠ some '/' → p.isWithin q = true → q ∈ p.levels) ∧
    ∀ p : Path, p.fault? = none → ∀ level ∈ p.levels, level.fault? = none := by
  refine ⟨?_, ?_, fun p hp level => fault_of_mem_levels hp⟩
  · intro p q hp hq
    exact isWithin_of_mem_levels hp hq (isWithin_self (chars_ne_nil_of_mem_levels hq))
  · intro p q hq htop hwithin
    rw [← subtree_top_eq_self hq htop]
    exact (isWithin_iff_top_mem_levels (chars_ne_nil_of_isWithin hwithin)).mp hwithin

/-- A relative path with a doubled slash, where one of the levels ends in a slash, and an accepted path. -/
theorem ancestry_agrees_doubled :
    (ofString "a//b").isWithin (ofString "a/") = true ∧ ofString "a" ∈ (ofString "a//b").levels ∧
    (ofString "/é/b").fault? = none ∧ (ofString "/é").fault? = none := by
  obtain ⟨hwithin, hlevel, hfault⟩ := ancestry_agrees
  refine ⟨hwithin _ _ (by decide) (by decide +kernel), ?_, by decide, ?_⟩
  · exact hlevel _ _ (by decide) (Or.inr (by decide)) (by decide)
  · exact hfault (ofString "/é/b") (by decide) _ (by decide +kernel)

/-! ## The order of a tree -/

theorem subtree_top_mem_levels (hp : p.chars ≠ []) : p.subtree.top ∈ p.levels :=
  (isWithin_iff_top_mem_levels hp).mp (isWithin_self hp)

theorem subtree_top_ne_nil (q : Path) : q.subtree.top.chars ≠ [] := by
  rw [subtree_top]
  exact chars_ofPrefix_ne_nil _

/-- What begins a text without ending in a slash begins it also when the text's trailing slashes are gone. -/
theorem prefix_of_prefix_append_slashes {xs ys : List Char} {n : Nat} (hlast : xs.getLast? ≠ some '/')
    (h : xs <+: ys ++ List.replicate n '/') : xs <+: ys := by
  induction n with
  | zero => simpa using h
  | succ n ih =>
    rw [List.replicate_succ', ← List.append_assoc, List.prefix_concat_iff] at h
    rcases h with rfl | h
    · exact absurd (by simp) hlast
    · exact ih h

/-- Of the tops among the levels of a path, the path's own is the longest. -/
theorem length_subtree_top_le (hp : p.chars ≠ []) (h : q.subtree.top ∈ p.levels) :
    q.subtree.top.chars.length ≤ p.subtree.top.chars.length := by
  have hstart := prefix_of_mem_levels hp h
  obtain ⟨n, hn⟩ := p.chars_eq_base_append
  by_cases hq : q.base = []
  · rw [subtree_top q, hq]
    exact List.length_pos_iff.mpr p.subtree_top_ne_nil
  · rw [subtree_top, ofPrefix_of_ne_nil hq, hn] at hstart
    have hbase : q.base <+: p.base := prefix_of_prefix_append_slashes (base_getLast_ne q) hstart
    have hb : p.base ≠ [] := fun hb => hq (List.prefix_nil.mp (hb ▸ hbase))
    rw [subtree_top, subtree_top, ofPrefix_of_ne_nil hq, ofPrefix_of_ne_nil hb]
    exact hbase.length_le

theorem subtree_top_unique (hab : a.isWithin b = true) (hba : b.isWithin a = true) :
    a.subtree.top = b.subtree.top := by
  have ha := chars_ne_nil_of_isWithin hab
  have hb := chars_ne_nil_of_isWithin hba
  have htop := (isWithin_iff_top_mem_levels ha).mp hab
  refine eq_of_mem_levels_of_length_eq (subtree_top_mem_levels ha) htop (Nat.le_antisymm ?_ ?_)
  · exact length_subtree_top_le hb ((isWithin_iff_top_mem_levels hb).mp hba)
  · exact length_subtree_top_le ha htop

/-- Slashes at the end do not place a path deeper: its top is in every region that it is in. -/
theorem subtree_top_isWithin (h : b.isWithin c = true) : b.subtree.top.isWithin c = true := by
  have hb := chars_ne_nil_of_isWithin h
  have htop := (isWithin_iff_top_mem_levels hb).mp h
  have hself := subtree_top_mem_levels hb
  rw [isWithin_iff_top_mem_levels b.subtree_top_ne_nil]
  rcases mem_levels_or_mem_levels hself htop with hbelow | habove
  · exact hbelow
  · have hle := (prefix_of_mem_levels c.subtree_top_ne_nil habove).length_le
    have heq := eq_of_mem_levels_of_length_eq htop hself (Nat.le_antisymm (length_subtree_top_le hb htop) hle)
    rwa [heq] at habove ⊢

theorem isWithin_trans (hab : a.isWithin b = true) (hbc : b.isWithin c = true) : a.isWithin c = true := by
  have ha := chars_ne_nil_of_isWithin hab
  exact isWithin_of_mem_levels ha ((isWithin_iff_top_mem_levels ha).mp hab) (subtree_top_isWithin hbc)

theorem isWithin_of_top_mem_levels (ha : a.chars ≠ []) (h : b.subtree.top ∈ a.subtree.top.levels) :
    a.isWithin b = true :=
  isWithin_of_mem_levels ha (subtree_top_mem_levels ha) ((isWithin_iff_top_mem_levels a.subtree_top_ne_nil).mpr h)

/-- **Being within is a tree order.**  It is reflexive but for the empty path and transitive.  Paths within each other
are the same but for slashes at their ends, and slashes at the end of the outer path do not matter.  Of two regions that
share a path, one lies in the other. -/
theorem isWithin_tree_order :
    (∀ a : Path, a.chars ≠ [] → a.isWithin a = true) ∧
    (∀ a b c : Path, a.isWithin b = true → b.isWithin c = true → a.isWithin c = true) ∧
    (∀ a b : Path, a.isWithin b = true → b.isWithin a = true → a.base = b.base) ∧
    (∀ (a b : Path) (n : Nat), a.isWithin ⟨b.chars ++ List.replicate n '/'⟩ = a.isWithin b) ∧
    ∀ p a b : Path, a.chars ≠ [] → b.chars ≠ [] → p.isWithin a = true → p.isWithin b = true →
      a.isWithin b = true ∨ b.isWithin a = true := by
  refine ⟨fun a => isWithin_self, fun a b c => isWithin_trans, ?_, ?_, ?_⟩
  · intro a b hab hba
    have htop := subtree_top_unique hab hba
    rw [subtree_top, subtree_top] at htop
    exact ofPrefix_base_injective htop
  · intro a b n
    exact isWithin_congr (b.base_add_slashes n)
  · intro p a b ha hb hpa hpb
    have hp := chars_ne_nil_of_isWithin hpa
    have hta := (isWithin_iff_top_mem_levels hp).mp hpa
    have htb := (isWithin_iff_top_mem_levels hp).mp hpb
    rcases mem_levels_or_mem_levels hta htb with hba | hab
    · exact Or.inl (isWithin_of_top_mem_levels ha hba)
    · exact Or.inr (isWithin_of_top_mem_levels hb hab)

/-- A resource, its node with slashes behind it, and the node's directory; the sibling whose name begins alike is in
neither. -/
theorem isWithin_tree_order_node :
    (ofString "/n/1//").isWithin (ofString "/n/1//") = true ∧
    (ofString "/n/1/x").isWithin (ofString "/n/") = true ∧
    (ofString "/n//").base = (ofString "/n/").base ∧
    (ofString "/n/1b").isWithin (ofString "/n/1//") = false ∧
    ((ofString "/n/1//").isWithin (ofString "/n/") = true ∨ (ofString "/n/").isWithin (ofString "/n/1//") = true) := by
  obtain ⟨hself, htrans, hantisymm, hslashes, hnested⟩ := isWithin_tree_order
  refine ⟨hself _ (by decide), ?_, hantisymm _ _ (by decide) (by decide), ?_, ?_⟩
  · exact htrans _ (ofString "/n/1//") _ (by decide) (by decide)
  · exact (hslashes (ofString "/n/1b") (ofString "/n/1") 2).trans (by decide)
  · exact hnested (ofString "/n/1/x") _ _ (by decide) (by decide) (by decide) (by decide)

end ResourceAccess.Path
