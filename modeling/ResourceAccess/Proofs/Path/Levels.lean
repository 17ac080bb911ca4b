import Mathlib.Data.List.Nodup
import ResourceAccess.Path.Basic

/-!
# The levels of a path, as a set and as an order

`Path.levels` is a recursion on `Path.above?`.  Proofs about rules need it in two other forms: which paths are levels,
and how any two of them compare.  What stands before a slash of the path is a level, with the root for the empty text,
and there are no others but the path itself.

* `mem_levels_iff`: the levels of a non-empty path, without the recursion
* `levels_pairwise`: the levels get shorter, so no two of them have one length
* `levels_of_split`: the levels of a level are the rest of the levels
* `isRooted_of_mem_levels`: the levels of a path are rooted exactly when the path is
* `root_mem_levels_iff`: which paths reach the root
-/

namespace ResourceAccess.Path

/-! ## Texts cut at a slash -/

/-- Two cuts of one text at a slash: they are the same, or one lies inside the other's first part. -/
theorem append_slash_eq {u v u' v' : List Char} (h : u ++ '/' :: v = u' ++ '/' :: v') :
    (u = u' ∧ v = v') ∨ (∃ t, u = u' ++ '/' :: t ∧ v' = t ++ '/' :: v) ∨
      ∃ t, u' = u ++ '/' :: t ∧ v = t ++ '/' :: v' := by
  rcases List.append_eq_append_iff.mp h with ⟨t, hu, hv⟩ | ⟨t, hu, hv⟩
  · cases t with
    | nil => exact Or.inl ⟨by simpa using hu.symm, by simpa using hv⟩
    | cons c t =>
      rw [List.cons_append, List.cons.injEq] at hv
      obtain ⟨rfl, hv⟩ := hv
      exact Or.inr (Or.inr ⟨t, hu, hv⟩)
  · cases t with
    | nil => exact Or.inl ⟨by simpa using hu, by simpa using hv.symm⟩
    | cons c t =>
      rw [List.cons_append, List.cons.injEq] at hv
      obtain ⟨rfl, hv⟩ := hv
      exact Or.inr (Or.inl ⟨t, hu, hv⟩)

theorem beforeLastSlash_eq_none_iff {cs : List Char} : beforeLastSlash? cs = none ↔ '/' ∉ cs := by
  induction cs with
  | nil => simp [beforeLastSlash?]
  | cons c rest ih =>
    cases hr : beforeLastSlash? rest with
    | some above =>
      have hmem : '/' ∈ rest := by
        by_contra hn
        rw [ih.mpr hn] at hr
        exact absurd hr (by simp)
      simp [beforeLastSlash?, hr, hmem]
    | none =>
      have hn := ih.mp hr
      by_cases hc : c = '/'
      · simp [beforeLastSlash?, hr, hc]
      · simp [beforeLastSlash?, hr, hc, hn, eq_comm]

theorem eq_append_of_beforeLastSlash {cs above : List Char} (h : beforeLastSlash? cs = some above) :
    ∃ last, cs = above ++ '/' :: last ∧ '/' ∉ last := by
  induction cs generalizing above with
  | nil => simp [beforeLastSlash?] at h
  | cons c rest ih =>
    cases hr : beforeLastSlash? rest with
    | some a =>
      simp only [beforeLastSlash?, hr, Option.some.injEq] at h
      obtain ⟨last, hrest, hlast⟩ := ih hr
      exact ⟨last, by rw [← h, hrest, List.cons_append], hlast⟩
    | none =>
      simp only [beforeLastSlash?, hr] at h
      split at h
      · rename_i hc
        obtain rfl := Option.some.inj h
        exact ⟨rest, by rw [hc, List.nil_append], beforeLastSlash_eq_none_iff.mp hr⟩
      · exact absurd h (by simp)

/-! ## Which paths are levels -/

/-- The level that stands before a slash: the empty text there is the root. -/
def ofPrefix (above : List Char) : Path := if above = [] then root else ⟨above⟩

@[simp] theorem ofPrefix_nil : ofPrefix [] = root := rfl

theorem ofPrefix_of_ne_nil {above : List Char} (h : above ≠ []) : ofPrefix above = ⟨above⟩ := if_neg h

/-- The path is what stands before one of the slashes of the other. -/
def StandsAbove (q p : Path) : Prop := ∃ above rest, p.chars = above ++ '/' :: rest ∧ q = ofPrefix above

theorem standsAbove_root_iff {q : Path} : StandsAbove q root ↔ q = root := by
  constructor
  · rintro ⟨above, rest, hp, rfl⟩
    have hnil : above = [] := by
      cases above with
      | nil => rfl
      | cons c cs => simp [root] at hp
    rw [hnil, ofPrefix_nil]
  · rintro rfl
    exact ⟨[], [], rfl, rfl⟩

theorem above_eq_some {p q : Path} (h : p.above? = some q) :
    ∃ above last, p.chars = above ++ '/' :: last ∧ '/' ∉ last ∧ q = ofPrefix above := by
  unfold above? at h
  split at h
  · exact absurd h (by simp)
  · cases hb : beforeLastSlash? p.chars with
    | none => simp [hb] at h
    | some above =>
      obtain ⟨last, hp, hlast⟩ := eq_append_of_beforeLastSlash hb
      refine ⟨above, last, hp, hlast, ?_⟩
      cases above with
      | nil => simpa [hb, eq_comm] using h
      | cons c cs => simpa [hb, ofPrefix, eq_comm] using h

theorem above_eq_none {p : Path} (h : p.above? = none) : p = root ∨ '/' ∉ p.chars := by
  unfold above? at h
  split at h
  · rename_i hp
    exact Or.inl hp
  · cases hb : beforeLastSlash? p.chars with
    | none => exact Or.inr (beforeLastSlash_eq_none_iff.mp hb)
    | some above => cases above <;> simp [hb] at h

theorem standsAbove_iff_of_above {p next q : Path} (h : p.above? = some next) :
    StandsAbove q p ↔ q = next ∨ StandsAbove q next := by
  obtain ⟨above, last, hp, hlast, rfl⟩ := above_eq_some h
  constructor
  · rintro ⟨a, rest, ha, rfl⟩
    rw [hp] at ha
    rcases append_slash_eq ha with ⟨rfl, -⟩ | ⟨t, rfl, -⟩ | ⟨t, -, hl⟩
    · exact Or.inl rfl
    · exact Or.inr ⟨a, t, by rw [ofPrefix_of_ne_nil (by simp)], rfl⟩
    · exact absurd (by simp [hl]) hlast
  · rintro (rfl | ⟨a, rest, ha, rfl⟩)
    · exact ⟨above, last, hp, rfl⟩
    · by_cases hnil : above = []
      · subst hnil
        have hroot := standsAbove_root_iff.mp ⟨a, rest, ha, rfl⟩
        exact ⟨[], last, hp, hroot⟩
      · have hcut : above = a ++ '/' :: rest := by
          rw [ofPrefix_of_ne_nil hnil] at ha
          exact ha
        exact ⟨a, rest ++ '/' :: last, by rw [hp, hcut, List.append_assoc, List.cons_append], rfl⟩

theorem mem_walk_iff {p q : Path} : q ∈ p.walk ↔ q = p ∨ StandsAbove q p := by
  induction p using walk.induct with
  | case1 p h =>
    rw [walk_eq, h]
    constructor
    · intro hq
      exact Or.inl (by simpa using hq)
    · rintro (rfl | habove)
      · simp
      · rcases above_eq_none h with rfl | hslash
        · simp [standsAbove_root_iff.mp habove]
        · obtain ⟨above, rest, hp, -⟩ := habove
          exact absurd (by simp [hp]) hslash
  | case2 p next h ih =>
    rw [walk_eq, h, List.mem_cons, ih, standsAbove_iff_of_above h]

/-- The levels are the walk from the path, and from the root where there is no path. -/
theorem levels_eq_walk (p : Path) : p.levels = (ofPrefix p.chars).walk := by
  by_cases hp : p.chars = []
  · rw [levels, if_pos hp, hp, ofPrefix_nil, walk_eq]
    rfl
  · rw [levels, if_neg hp, ofPrefix_of_ne_nil hp]

theorem mem_levels_iff {p q : Path} (h : p.chars ≠ []) : q ∈ p.levels ↔ q = p ∨ StandsAbove q p := by
  rw [levels_eq_walk, ofPrefix_of_ne_nil h]
  exact mem_walk_iff

/-! ## How levels compare -/

theorem length_le_of_mem_walk {p q : Path} (h : q ∈ p.walk) : q.chars.length ≤ p.chars.length := by
  induction p using walk.induct with
  | case1 p hp =>
    rw [walk_eq, hp, List.mem_singleton] at h
    exact h ▸ Nat.le_refl _
  | case2 p next hp ih =>
    rw [walk_eq, hp, List.mem_cons] at h
    rcases h with rfl | h
    · exact Nat.le_refl _
    · have hle := ih h
      have hlt := length_above_lt hp
      omega

theorem walk_pairwise (p : Path) : p.walk.Pairwise fun a b => b.chars.length < a.chars.length := by
  induction p using walk.induct with
  | case1 p hp =>
    rw [walk_eq, hp]
    exact List.pairwise_singleton _ _
  | case2 p next hp ih =>
    rw [walk_eq, hp]
    refine List.pairwise_cons.mpr ⟨fun q hq => ?_, ih⟩
    have hle := length_le_of_mem_walk hq
    have hlt := length_above_lt hp
    omega

theorem levels_pairwise (p : Path) : p.levels.Pairwise fun a b => b.chars.length < a.chars.length := by
  rw [levels_eq_walk]
  exact walk_pairwise _

theorem eq_of_mem_levels_of_length_eq {p a b : Path} (ha : a ∈ p.levels) (hb : b ∈ p.levels)
    (h : a.chars.length = b.chars.length) : a = b := by
  have hnodup : (p.levels.map fun q => q.chars.length).Nodup :=
    List.pairwise_map.mpr (p.levels_pairwise.imp fun hlt => Nat.ne_of_gt hlt)
  exact List.inj_on_of_nodup_map hnodup ha hb h

/-! ## The levels of a level -/

theorem chars_ofPrefix_ne_nil (above : List Char) : (ofPrefix above).chars ≠ [] := by
  by_cases hnil : above = []
  · simp [hnil, root]
  · rwa [ofPrefix_of_ne_nil hnil]

theorem chars_ne_nil_of_mem_levels {p q : Path} (h : q ∈ p.levels) : q.chars ≠ [] := by
  rw [levels_eq_walk] at h
  rcases mem_walk_iff.mp h with rfl | ⟨above, -, -, rfl⟩
  · exact chars_ofPrefix_ne_nil _
  · exact chars_ofPrefix_ne_nil _

theorem walk_of_mem_levels {p q : Path} (h : q ∈ p.levels) : q.levels = q.walk := by
  rw [levels_eq_walk, ofPrefix_of_ne_nil (chars_ne_nil_of_mem_levels h)]

theorem prefix_of_mem_levels {p q : Path} (hp : p.chars ≠ []) (h : q ∈ p.levels) : q.chars <+: p.chars := by
  rcases (mem_levels_iff hp).mp h with rfl | ⟨above, rest, hcut, rfl⟩
  · exact List.prefix_refl _
  · rw [hcut]
    cases above with
    | nil => exact ⟨rest, rfl⟩
    | cons d ds => exact ⟨'/' :: rest, rfl⟩

/-- From a level on, the walk is the level's own walk. -/
theorem walk_of_split {p level : Path} {before after : List Path} (h : p.walk = before ++ level :: after) :
    level.walk = level :: after := by
  induction p using walk.induct generalizing before with
  | case1 p hp =>
    rw [walk_eq, hp, List.singleton_eq_append_iff] at h
    rcases h with ⟨-, hlevel⟩ | ⟨-, hlevel⟩
    · obtain ⟨rfl, rfl⟩ := List.cons.inj hlevel
      rw [walk_eq, hp]
    · exact absurd hlevel (List.cons_ne_nil _ _)
  | case2 p next hp ih =>
    rw [walk_eq, hp, List.cons_eq_append_iff] at h
    rcases h with ⟨-, hlevel⟩ | ⟨rest, -, hrest⟩
    · obtain ⟨rfl, rfl⟩ := List.cons.inj hlevel
      rw [walk_eq, hp]
    · exact ih hrest

/-- **The levels of a level are the rest of the levels.** -/
theorem levels_of_split {p level : Path} {before after : List Path} (h : p.levels = before ++ level :: after) :
    level.levels = level :: after := by
  have hmem : level ∈ p.levels := by simp [h]
  rw [walk_of_mem_levels hmem]
  rw [levels_eq_walk] at h
  exact walk_of_split h

theorem length_lt_of_split {p level q : Path} {before after : List Path} (h : p.levels = before ++ level :: after)
    (hq : q ∈ after) : q.chars.length < level.chars.length := by
  have hpair := p.levels_pairwise
  rw [h] at hpair
  exact (List.pairwise_cons.mp (List.pairwise_append.mp hpair).2.1).1 q hq

theorem ne_of_split {p level q : Path} {before after : List Path} (h : p.levels = before ++ level :: after)
    (hq : q ∈ after) : q ≠ p := by
  rintro rfl
  have hself : q ∈ q.levels := by simp [h, hq]
  have hlevel : level ∈ q.levels := by simp [h]
  rw [walk_of_mem_levels hself] at hlevel
  have hle := length_le_of_mem_walk hlevel
  have hlt := length_lt_of_split h hq
  omega

/-- Of two levels of a path, one is a level of the other. -/
theorem mem_levels_or_mem_levels {p a b : Path} (ha : a ∈ p.levels) (hb : b ∈ p.levels) :
    b ∈ a.levels ∨ a ∈ b.levels := by
  obtain ⟨before, after, hsplit⟩ := List.append_of_mem ha
  rw [hsplit, List.mem_append] at hb
  rcases hb with hbefore | hfrom
  · obtain ⟨first, last, rfl⟩ := List.append_of_mem hbefore
    rw [List.append_assoc, List.cons_append] at hsplit
    exact Or.inr (by rw [levels_of_split hsplit]; simp)
  · exact Or.inl (by rwa [levels_of_split hsplit])

/-! ## Rooted paths -/

theorem isRooted_iff {p : Path} : p.isRooted = true ↔ ∃ rest, p.chars = '/' :: rest := by
  rw [isRooted, beq_iff_eq, List.head?_eq_some_iff]

theorem isRooted_of_standsAbove {p q : Path} (h : StandsAbove q p) : q.isRooted = p.isRooted := by
  obtain ⟨above, rest, hp, rfl⟩ := h
  cases above with
  | nil => simp [isRooted, hp, root]
  | cons c cs => simp [isRooted, hp, ofPrefix_of_ne_nil]

theorem isRooted_of_mem_levels {p q : Path} (hp : p.chars ≠ []) (hq : q ∈ p.levels) : q.isRooted = p.isRooted := by
  rcases (mem_levels_iff hp).mp hq with rfl | h
  · rfl
  · exact isRooted_of_standsAbove h

/-- **The root is a level of the rooted paths and of the empty one.** -/
theorem root_mem_levels_iff {p : Path} : root ∈ p.levels ↔ p.isRooted = true ∨ p.chars = [] := by
  by_cases hp : p.chars = []
  · rw [levels, if_pos hp]
    exact iff_of_true (List.mem_singleton.mpr rfl) (Or.inr hp)
  · rw [or_iff_left hp]
    constructor
    · intro hroot
      rw [← isRooted_of_mem_levels hp hroot]
      rfl
    · intro hrooted
      obtain ⟨rest, hrest⟩ := isRooted_iff.mp hrooted
      exact (mem_levels_iff hp).mpr (Or.inr ⟨[], rest, hrest, rfl⟩)

end ResourceAccess.Path
