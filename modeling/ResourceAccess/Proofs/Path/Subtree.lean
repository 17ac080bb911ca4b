import Mathlib.Data.List.DropRight
import ResourceAccess.Proofs.Path.Levels

/-!
# The region at and below a path

There are two tests for this region.  `Path.isWithin` compares the text after the trailing slashes are gone, segment by
segment; `Path.subtree` is one exact path and one stem, which is what a store can look rows up by.  The tests agree, and
the region is closed downwards along `Path.levels`.

* `covers_subtree`: **the two tests agree on every pair of texts**
* `isWithin_of_mem_levels`: a path with a level in the region is in the region
* `mem_levels_iff_of_isWithin`: outside the region, all paths of the region have the same levels
-/

namespace ResourceAccess.Path

/-! ## The text without trailing slashes -/

theorem base_getLast_ne (top : Path) : top.base.getLast? ≠ some '/' := by
  intro h
  rw [base, List.getLast?_reverse] at h
  have hnot := List.head?_dropWhile_not (· == '/') top.chars.reverse
  rw [h] at hnot
  simp at hnot

theorem base_eq_rdropWhile (p : Path) : p.base = p.chars.rdropWhile (· == '/') := rfl

theorem chars_eq_base_append (p : Path) : ∃ n, p.chars = p.base ++ List.replicate n '/' := by
  have hslashes : p.chars.rtakeWhile (· == '/') =
      List.replicate (p.chars.rtakeWhile (· == '/')).length '/' :=
    List.eq_replicate_of_mem fun c hc => by simpa using List.mem_rtakeWhile_imp hc
  refine ⟨(p.chars.rtakeWhile (· == '/')).length, ?_⟩
  rw [← hslashes, base_eq_rdropWhile, List.rdropWhile_append_rtakeWhile]

/-- A text that does not end in a slash is what is left when slashes after it are gone. -/
theorem base_append_slashes {cs : List Char} (h : cs.getLast? ≠ some '/') (n : Nat) :
    base ⟨cs ++ List.replicate n '/'⟩ = cs := by
  rw [base_eq_rdropWhile]
  induction n with
  | zero =>
    rw [List.replicate_zero, List.append_nil, List.rdropWhile_eq_self_iff]
    intro hne hlast
    exact h (by rw [List.getLast?_eq_some_getLast hne, beq_iff_eq.mp hlast])
  | succ n ih =>
    show List.rdropWhile (· == '/') (cs ++ List.replicate (n + 1) '/') = cs
    rw [List.replicate_succ', ← List.append_assoc, List.rdropWhile_concat_pos (· == '/') _ _ (beq_self_eq_true _)]
    exact ih

theorem base_add_slashes (p : Path) (n : Nat) : base ⟨p.chars ++ List.replicate n '/'⟩ = p.base := by
  obtain ⟨m, hm⟩ := p.chars_eq_base_append
  rw [hm, List.append_assoc, List.replicate_append_replicate, base_append_slashes (base_getLast_ne p)]

theorem isWithin_of_base_nil {p top : Path} (h : top.base = []) : p.isWithin top = p.isRooted := by
  simp [isWithin, h]

theorem isWithin_congr {p q top : Path} (h : q.base = top.base) : p.isWithin q = p.isWithin top := by
  rw [isWithin, isWithin, h]

theorem isWithin_iff_of_base_ne_nil {p top : Path} (h : top.base ≠ []) :
    p.isWithin top = true ↔ p.chars = top.base ∨ ∃ rest, p.chars = top.base ++ '/' :: rest := by
  obtain ⟨c, cs, hb⟩ := List.exists_cons_of_ne_nil h
  rw [isWithin, hb]
  dsimp only
  cases hf : (c :: cs).isPrefixOf? p.chars with
  | none =>
    -- no remainder at all, so the base is not in front
    have hno : ∀ rest, c :: cs ++ rest ≠ p.chars := by
      intro rest hr
      rw [List.isPrefixOf?_eq_some_iff_append_eq.mpr hr] at hf
      exact absurd hf (by simp)
    constructor
    · intro hfalse
      exact absurd hfalse (by simp)
    · rintro (hp | ⟨rest, hp⟩)
      · exact absurd (by rw [List.append_nil, hp]) (hno [])
      · exact absurd hp.symm (hno _)
  | some rest =>
    have hp := List.isPrefixOf?_eq_some_iff_append_eq.mp hf
    rw [← hp]
    cases rest with
    | nil => simp
    | cons d rest => simp

theorem base_isWithin {top : Path} (hb : top.base ≠ []) : (⟨top.base⟩ : Path).isWithin top = true :=
  (isWithin_iff_of_base_ne_nil hb).mpr (Or.inl rfl)

theorem below_base_isWithin {top : Path} (hb : top.base ≠ []) (rest : List Char) :
    (⟨top.base ++ '/' :: rest⟩ : Path).isWithin top = true :=
  (isWithin_iff_of_base_ne_nil hb).mpr (Or.inr ⟨rest, rfl⟩)

/-! ## The exact path and the stem -/

/-- **The two tests of a subtree agree**, for every path and every top, rooted or not. -/
theorem covers_subtree (top p : Path) : top.subtree.covers p = p.isWithin top := by
  cases hb : top.base with
  | nil =>
    rw [isWithin_of_base_nil hb, Bool.eq_iff_iff, isRooted_iff]
    simp only [subtree, hb, Subtree.covers, Bool.or_eq_true, beq_iff_eq]
    constructor
    · rintro (rfl | htake)
      · exact ⟨[], rfl⟩
      · cases hc : p.chars with
        | nil => simp [hc, root] at htake
        | cons d rest => exact ⟨rest, by simpa [hc, root] using htake⟩
    · rintro ⟨rest, hp⟩
      exact Or.inr (by simp [hp, root])
  | cons c cs =>
    have hne : top.base ≠ [] := by simp [hb]
    rw [Bool.eq_iff_iff, isWithin_iff_of_base_ne_nil hne]
    simp only [subtree, hb, Subtree.covers, Bool.or_eq_true, beq_iff_eq]
    refine or_congr ?_ ?_
    · constructor
      · rintro rfl
        rfl
      · intro hp
        cases p
        simpa using hp
    · constructor
      · intro htake
        have hpre : (c :: cs) ++ ['/'] <+: p.chars := by
          rw [List.prefix_iff_eq_take]
          exact htake.symm
        obtain ⟨rest, hr⟩ := hpre
        exact ⟨rest, by simpa using hr.symm⟩
      · rintro ⟨rest, hp⟩
        have hpre : (c :: cs) ++ ['/'] <+: p.chars := ⟨rest, by simp [hp]⟩
        exact (List.prefix_iff_eq_take.mp hpre).symm

/-! ## The region and the levels -/

theorem chars_ne_nil_of_isWithin {p top : Path} (h : p.isWithin top = true) : p.chars ≠ [] := by
  intro hp
  by_cases hb : top.base = []
  · rw [isWithin_of_base_nil hb, isRooted, hp] at h
    exact absurd h (by simp)
  · rcases (isWithin_iff_of_base_ne_nil hb).mp h with hc | ⟨rest, hc⟩
    · exact hb (by rw [← hc, hp])
    · simp [hp] at hc

theorem root_not_isWithin {top : Path} (hb : top.base ≠ []) : root.isWithin top = false := by
  rw [Bool.eq_false_iff]
  intro h
  rcases (isWithin_iff_of_base_ne_nil hb).mp h with hc | ⟨rest, hc⟩
  · have hlast := base_getLast_ne top
    rw [← hc] at hlast
    exact hlast rfl
  · rw [root, List.cons_eq_append_iff] at hc
    rcases hc with ⟨hnil, -⟩ | ⟨as, -, hc⟩
    · exact hb hnil
    · exact absurd hc (by simp)

/-- What stands before a slash of a path in the region is in the region only together with the path. -/
theorem isWithin_of_standsAbove {p q top : Path} (h : StandsAbove q p) (hq : q.isWithin top = true) :
    p.isWithin top = true := by
  by_cases hb : top.base = []
  · rw [isWithin_of_base_nil hb] at hq ⊢
    rw [← isRooted_of_standsAbove h, hq]
  · obtain ⟨above, rest, hp, rfl⟩ := h
    have hne : above ≠ [] := by
      rintro rfl
      rw [ofPrefix_nil, root_not_isWithin hb] at hq
      exact absurd hq (by simp)
    rw [ofPrefix_of_ne_nil hne] at hq
    rw [isWithin_iff_of_base_ne_nil hb] at hq ⊢
    rcases hq with hc | ⟨t, hc⟩
    · exact Or.inr ⟨rest, by rw [hp, ← hc]⟩
    · have hcut : above = top.base ++ '/' :: t := hc
      exact Or.inr ⟨t ++ '/' :: rest, by rw [hp, hcut, List.append_assoc, List.cons_append]⟩

theorem isWithin_of_mem_levels {p q top : Path} (hp : p.chars ≠ []) (h : q ∈ p.levels)
    (hq : q.isWithin top = true) : p.isWithin top = true := by
  rcases (mem_levels_iff hp).mp h with rfl | habove
  · exact hq
  · exact isWithin_of_standsAbove habove hq

/-- Above a path of the region, what lies outside the region is what stands above the region's top. -/
theorem standsAbove_iff_of_isWithin {p q top : Path} (hb : top.base ≠ []) (hp : p.isWithin top = true)
    (hq : q.isWithin top = false) : StandsAbove q p ↔ StandsAbove q ⟨top.base⟩ := by
  rcases (isWithin_iff_of_base_ne_nil hb).mp hp with hc | ⟨rest, hc⟩
  · rw [StandsAbove, StandsAbove, hc]
  · constructor
    · rintro ⟨above, after, ha, rfl⟩
      rw [hc] at ha
      rcases append_slash_eq ha with ⟨hcut, -⟩ | ⟨t, hcut, -⟩ | ⟨t, hcut, -⟩
      · rw [← hcut, ofPrefix_of_ne_nil hb, base_isWithin hb] at hq
        exact absurd hq (by simp)
      · exact ⟨above, t, hcut, rfl⟩
      · rw [hcut, ofPrefix_of_ne_nil (by simp), below_base_isWithin hb] at hq
        exact absurd hq (by simp)
    · rintro ⟨above, after, ha, rfl⟩
      have hcut : top.base = above ++ '/' :: after := ha
      exact ⟨above, after ++ '/' :: rest, by rw [hc, hcut, List.append_assoc, List.cons_append], rfl⟩

/-- **Outside the region all its paths have the same levels.** -/
theorem mem_levels_iff_of_isWithin {p₁ p₂ q top : Path} (h₁ : p₁.isWithin top = true)
    (h₂ : p₂.isWithin top = true) (hq : q.isWithin top = false) : q ∈ p₁.levels ↔ q ∈ p₂.levels := by
  have hne : ∀ p : Path, p.isWithin top = true → q ≠ p := by
    rintro p hp rfl
    rw [hp] at hq
    exact absurd hq (by simp)
  rw [mem_levels_iff (chars_ne_nil_of_isWithin h₁), mem_levels_iff (chars_ne_nil_of_isWithin h₂),
    or_iff_right (hne p₁ h₁), or_iff_right (hne p₂ h₂)]
  by_cases hb : top.base = []
  · -- the region is all rooted paths, and above those there are only rooted ones
    have hno : ∀ p : Path, p.isWithin top = true → ¬ StandsAbove q p := by
      intro p hp habove
      rw [isWithin_of_base_nil hb] at hp hq
      rw [isRooted_of_standsAbove habove, hp] at hq
      exact absurd hq (by simp)
    exact iff_of_false (hno p₁ h₁) (hno p₂ h₂)
  · rw [standsAbove_iff_of_isWithin hb h₁ hq, standsAbove_iff_of_isWithin hb h₂ hq]

end ResourceAccess.Path
