import ResourceAccess.Path.Cursor
import ResourceAccess.Proofs.Path.Levels

/-!
# The chain of truncations

A cursor keeps two things, the text to look at next and the level handed out last, and hands out a level only if it is
not the last one again.  One invariant carries its run: the level of the text to look at is not the one handed out last.
It breaks only at the root, whose text has the empty text above it, and there the cursor has nothing more to hand out.
So the cursor hands out `Path.levels` and runs out.

`IsChain` says what this list is without any walk: its first member, its members, and that they get shorter.  The levels
are such a list by `mem_levels_iff` and `levels_pairwise`, and there is no other, as the lengths leave the members only
one order.

* `Cursor.yields_iff`: what a cursor hands out, until it runs out
* `isChain_iff`: the levels are the one chain of truncations
* `length_levels`: there is a level for each slash and one more, unless two of the truncations are the root
* `cursor_yields_truncations`: **the cursor hands out the chain of truncations**
-/

namespace ResourceAccess.Path

/-! ## The run of a cursor -/

namespace Cursor

/-- Asked again and again, the cursor hands out these levels, and then it has no more. -/
inductive Yields : Cursor → List Path → Prop where
  | done {c : Cursor} (h : c.advance = none) : Yields c []
  | level {c after : Cursor} {level : Path} {levels : List Path} (h : c.advance = some (level, after))
    (rest : Yields after levels) : Yields c (level :: levels)

theorem Yields.unique {c : Cursor} {levels levels' : List Path} (h : c.Yields levels) (h' : c.Yields levels') :
    levels = levels' := by
  induction h generalizing levels' with
  | done hnone =>
    cases h' with
    | done => rfl
    | level hsome => rw [hnone] at hsome; exact absurd hsome (by simp)
  | level hsome _ ih =>
    cases h' with
    | done hnone => rw [hnone] at hsome; exact absurd hsome (by simp)
    | level hsome' rest' =>
      rw [hsome, Option.some.injEq, Prod.mk.injEq] at hsome'
      obtain ⟨rfl, rfl⟩ := hsome'
      rw [ih rest']

theorem advance_of_new {text : List Char} {last : Option Path} (h : last ≠ some (ofPrefix text)) :
    advance ⟨some text, last⟩ = some (ofPrefix text, ⟨beforeLastSlash? text, some (ofPrefix text)⟩) := by
  rw [advance_text]
  exact if_neg h

theorem advance_of_again (text : List Char) :
    advance ⟨some text, some (ofPrefix text)⟩ = advance ⟨beforeLastSlash? text, some (ofPrefix text)⟩ := by
  rw [advance_text]
  exact if_pos rfl

end Cursor

theorem ne_nil_of_beforeLastSlash {text above : List Char} (h : beforeLastSlash? text = some above) : text ≠ [] := by
  rintro rfl
  exact absurd h (by simp [beforeLastSlash?])

/-- A text and the text before its last slash stand for one level only at the root. -/
theorem ofPrefix_above_eq_iff {text above : List Char} (h : beforeLastSlash? text = some above) :
    ofPrefix above = ofPrefix text ↔ above = [] ∧ text = root.chars := by
  rw [ofPrefix_of_ne_nil (ne_nil_of_beforeLastSlash h)]
  constructor
  · intro heq
    by_cases hnil : above = []
    · subst hnil
      exact ⟨rfl, congrArg chars heq.symm⟩
    · rw [ofPrefix_of_ne_nil hnil, mk.injEq] at heq
      exact absurd (heq ▸ length_beforeLastSlash_lt h) (Nat.lt_irrefl _)
  · rintro ⟨rfl, htext⟩
    rw [htext]
    rfl

theorem above_ofPrefix_of_none {text : List Char} (h : beforeLastSlash? text = none) :
    (ofPrefix text).above? = none := by
  by_cases hnil : text = []
  · rw [hnil, ofPrefix_nil]
    rfl
  · rw [ofPrefix_of_ne_nil hnil, above?, h]
    split <;> rfl

/-- The level above a text's is that of the text before its last slash, but for the root. -/
theorem above_ofPrefix_of_some {text above : List Char} (h : beforeLastSlash? text = some above)
    (hnew : ofPrefix above ≠ ofPrefix text) : (ofPrefix text).above? = some (ofPrefix above) := by
  have hroot : (⟨text⟩ : Path) ≠ root := by
    intro hroot
    have htext : text = root.chars := congrArg chars hroot
    have habove : above = [] := by
      rw [htext] at h
      exact (Option.some.inj h).symm
    exact hnew ((ofPrefix_above_eq_iff h).mpr ⟨habove, htext⟩)
  rw [ofPrefix_of_ne_nil (ne_nil_of_beforeLastSlash h), above?, if_neg hroot, h]
  cases above with
  | nil => rfl
  | cons c cs => rw [ofPrefix_of_ne_nil (List.cons_ne_nil c cs)]

/-- **The run of a cursor**: from a text whose level was not handed out last, it hands out the walk from that level. -/
theorem Cursor.yields_walk {text : List Char} {last : Option Path} (hnew : last ≠ some (ofPrefix text)) :
    Yields ⟨some text, last⟩ (ofPrefix text).walk := by
  induction hn : text.length using Nat.strongRecOn generalizing text last with
  | ind n ih =>
    rw [walk_eq]
    refine .level (advance_of_new hnew) ?_
    cases hb : beforeLastSlash? text with
    | none =>
      rw [above_ofPrefix_of_none hb]
      exact .done (advance_none _)
    | some above =>
      by_cases hagain : ofPrefix above = ofPrefix text
      · -- the root was just handed out, and above the empty text there is nothing
        obtain ⟨rfl, htext⟩ := (ofPrefix_above_eq_iff hb).mp hagain
        rw [← hagain]
        refine .done ?_
        rw [advance_of_again]
        exact advance_none _
      · rw [above_ofPrefix_of_some hb hagain]
        refine ih above.length ?_ (fun heq => hagain (Option.some.inj heq).symm) rfl
        rw [← hn]
        exact length_beforeLastSlash_lt hb

theorem Cursor.yields_iff {p : Path} {levels : List Path} : (start p).Yields levels ↔ levels = p.levels := by
  have hrun : (start p).Yields p.levels := by
    rw [levels_eq_walk]
    exact yields_walk (by simp)
  constructor
  · intro h
    exact h.unique hrun
  · rintro rfl
    exact hrun

/-! ## The one chain of truncations -/

/-- A chain of truncations: it starts with the path and holds besides what stands before the slashes of the path, shorter
and shorter.  The empty text stands for the root. -/
structure IsChain (p : Path) (chain : List Path) : Prop where
  head : chain.head? = some (ofPrefix p.chars)
  mem_iff : ∀ q, q ∈ chain ↔ q = ofPrefix p.chars ∨ StandsAbove q p
  shrinks : chain.Pairwise fun a b => b.chars.length < a.chars.length

theorem IsChain.nodup {p : Path} {chain : List Path} (h : IsChain p chain) : chain.Nodup :=
  h.shrinks.imp fun hlt heq => absurd (congrArg (List.length ∘ chars) heq) (Nat.ne_of_gt hlt)

theorem IsChain.unique {p : Path} {chain chain' : List Path} (h : IsChain p chain) (h' : IsChain p chain') :
    chain = chain' := by
  have hperm : chain.Perm chain' :=
    (List.perm_ext_iff_of_nodup h.nodup h'.nodup).mpr fun q => (h.mem_iff q).trans (h'.mem_iff q).symm
  refine hperm.eq_of_pairwise (fun a b _ _ hab hba => ?_) h.shrinks h'.shrinks
  exact absurd hab (Nat.lt_asymm hba)

theorem isChain_levels (p : Path) : IsChain p p.levels where
  head := by rw [levels_eq_walk, walk_eq, List.head?_cons]
  mem_iff q := by
    by_cases hp : p.chars = []
    · -- nothing stands above the empty path, which is the root already
      have hno : ¬ StandsAbove q p := by
        rintro ⟨above, rest, hcut, -⟩
        rw [hp] at hcut
        exact absurd hcut (by simp)
      rw [levels, if_pos hp, hp, ofPrefix_nil, List.mem_singleton, or_iff_left hno]
    · rw [mem_levels_iff hp, ofPrefix_of_ne_nil hp]
  shrinks := p.levels_pairwise

theorem isChain_iff {p : Path} {chain : List Path} : IsChain p chain ↔ chain = p.levels := by
  constructor
  · intro h
    exact h.unique p.isChain_levels
  · rintro rfl
    exact p.isChain_levels

/-! ## The end and the length of the chain -/

/-- Nothing is shorter than the root, so where the root is a level it is the last one. -/
theorem getLast_levels_eq_root_iff {p : Path} : p.levels.getLast? = some root ↔ p.chars = [] ∨ p.isRooted = true := by
  rw [Or.comm, ← root_mem_levels_iff]
  constructor
  · exact List.mem_of_getLast?
  · intro hroot
    obtain ⟨before, after, hsplit⟩ := List.append_of_mem hroot
    have hafter : after = [] := by
      rw [List.eq_nil_iff_forall_not_mem]
      intro q hq
      have hlt := length_lt_of_split hsplit hq
      have hne := chars_ne_nil_of_mem_levels (p := p) (q := q) (by simp [hsplit, hq])
      exact hne (List.length_eq_zero_iff.mp (Nat.lt_one_iff.mp hlt))
    rw [hsplit, hafter, List.getLast?_concat]

/-- Two of the truncations are the root, the empty text and a single slash: that is so for the root itself and for the
paths that begin with two slashes. -/
def RepeatsRoot (p : Path) : Prop := p = root ∨ ['/', '/'] <+: p.chars

instance (p : Path) : Decidable p.RepeatsRoot := inferInstanceAs (Decidable (_ ∨ _))

theorem not_repeatsRoot_of_not_mem {p : Path} (h : '/' ∉ p.chars) : ¬ p.RepeatsRoot := by
  rintro (rfl | hpre)
  · exact h List.mem_cons_self
  · exact h (hpre.subset List.mem_cons_self)

theorem repeatsRoot_append {above : List Char} (h : above ≠ []) (rest : List Char) :
    RepeatsRoot ⟨above ++ '/' :: rest⟩ ↔ RepeatsRoot ⟨above⟩ := by
  cases above with
  | nil => exact absurd rfl h
  | cons c cs =>
    cases cs with
    | nil => simp [RepeatsRoot, root, List.cons_prefix_cons, eq_comm]
    | cons d ds => simp [RepeatsRoot, root, List.cons_prefix_cons]

theorem length_walk {p : Path} (hp : p.chars ≠ []) :
    p.walk.length = p.chars.count '/' + if p.RepeatsRoot then 0 else 1 := by
  -- every step of the walk takes one slash away, but whether the root repeats shows only at the first segment
  induction p using walk.induct with
  | case1 p hnone =>
    rw [walk_eq, hnone]
    rcases above_eq_none hnone with rfl | hslash
    · rfl
    · rw [List.count_eq_zero.mpr hslash, if_neg (not_repeatsRoot_of_not_mem hslash)]
      rfl
  | case2 p next hnext ih =>
    obtain ⟨above, last, hcut, hlast, rfl⟩ := above_eq_some hnext
    have hcount : p.chars.count '/' = above.count '/' + 1 := by
      rw [hcut, List.count_append, List.count_cons_self, List.count_eq_zero.mpr hlast]
    rw [walk_eq, hnext, List.length_cons]
    dsimp only
    rw [ih (chars_ofPrefix_ne_nil above), hcount]
    by_cases hnil : above = []
    · -- one segment below the root, which the empty text before its slash stands for
      subst hnil
      have honce : ¬ p.RepeatsRoot := by
        rintro (rfl | hpre)
        · exact absurd hnext (by simp [above?])
        · rw [hcut, List.nil_append, List.cons_prefix_cons] at hpre
          exact hlast (hpre.2.subset List.mem_cons_self)
      rw [if_neg honce]
      rfl
    · have hp : p.RepeatsRoot ↔ RepeatsRoot ⟨above⟩ := by
        rw [← repeatsRoot_append hnil last, ← hcut]
      simp only [ofPrefix_of_ne_nil hnil, hp]
      omega

theorem length_levels {p : Path} (hp : p.chars ≠ []) :
    p.levels.length = p.chars.count '/' + if p.RepeatsRoot then 0 else 1 := by
  rw [levels_eq_walk, ofPrefix_of_ne_nil hp]
  exact length_walk hp

/-! ## What a cursor hands out -/

/-- **The cursor hands out the chain of truncations.**  From any path it runs out, and what it has handed out by then is
the chain of truncations of the path, which is `levels`.  No level comes twice, and from one of them on come the levels
of that level.  The last one is the root exactly for the rooted paths and the empty one.  Of a non-empty path there is a
level for each slash, and one more unless the path is the root or begins with two slashes. -/
theorem cursor_yields_truncations (p : Path) :
    (∀ chain, (Cursor.start p).Yields chain ↔ IsChain p chain) ∧
    (Cursor.start p).Yields p.levels ∧
    p.levels.Nodup ∧
    (∀ before level after, p.levels = before ++ level :: after → (Cursor.start level).Yields (level :: after)) ∧
    (p.levels.getLast? = some root ↔ p.chars = [] ∨ p.isRooted = true) ∧
    (p.chars ≠ [] → p.levels.length = p.chars.count '/' + if p = root ∨ ['/', '/'] <+: p.chars then 0 else 1) := by
  refine ⟨fun chain => ?_, Cursor.yields_iff.mpr rfl, p.isChain_levels.nodup, ?_, getLast_levels_eq_root_iff, ?_⟩
  · rw [Cursor.yields_iff, isChain_iff]
  · intro before level after hsplit
    rw [Cursor.yields_iff, levels_of_split hsplit]
  · exact length_levels

/-- Slashes doubled at the front and one at the end: the root comes once. -/
theorem cursor_yields_truncations_doubled :
    (Cursor.start (ofString "//a/")).Yields [ofString "//a/", ofString "//a", root] ∧
    (Cursor.start (ofString "//a")).Yields [ofString "//a", root] ∧
    IsChain (ofString "//a/") [ofString "//a/", ofString "//a", root] ∧
    (ofString "//a/").chars ≠ [] ∧ (ofString "//a/").levels.length = 3 := by
  obtain ⟨hchain, hrun, -, hsuffix, -, hlength⟩ := cursor_yields_truncations (ofString "//a/")
  have hlevels : (ofString "//a/").levels = [ofString "//a/", ofString "//a", root] := by decide +kernel
  have hne : (ofString "//a/").chars ≠ [] := by decide
  rw [hlevels] at hrun
  exact ⟨hrun, hsuffix [ofString "//a/"] _ _ hlevels, (hchain _).mp hrun, hne, hlength hne⟩

end ResourceAccess.Path
