import ResourceAccess.Proofs.Decision.MostSpecific

/-!
# What a path inherits

Above a path the same levels follow as above any of its levels.  So where the path and the levels up to one of them bear
no rules, the path inherits what is decided at that level.  There is one exception: a rule that allows and does not
propagate speaks at the level, and not below it.

* `ofRules_of_denied`, `ofRules_of_allowed`, `ofRules_of_silent`: the first level that bears rules, from the path
* `ofRules_inherited`: **a path inherits from the first of its levels that bears rules, or from what stands above it**
-/

namespace ResourceAccess.Decision

variable {rules : List Rule} {queried level : Path} {before after : List Path}

/-! ## The first level that bears rules -/

/-- A rule that speaks on the path stands at this level or above it. -/
theorem mem_of_speaksOn (hlevels : queried.levels = before ++ level :: after)
    (hbefore : ∀ r ∈ rules, r.path ∉ before) {r : Rule} (hr : r ∈ rules) (hspeaks : r.SpeaksOn queried) :
    r.path = level ∨ r.path ∈ after := by
  have hmem := hspeaks.mem_levels
  rw [hlevels, List.mem_append, List.mem_cons] at hmem
  exact hmem.resolve_left (hbefore r hr)

theorem mostSpecific_of_split (hlevels : queried.levels = before ++ level :: after)
    (hbefore : ∀ r ∈ rules, r.path ∉ before) (hspoken : ∃ r ∈ speaking rules queried, r.path = level) :
    MostSpecific (speaking rules queried) level where
  spoken := hspoken
  longest := by
    rintro r ⟨hr, hspeaks⟩
    rcases mem_of_speaksOn hlevels hbefore hr hspeaks with heq | habove
    · exact Nat.le_of_eq (by rw [heq])
    · exact Nat.le_of_lt (Path.length_lt_of_split hlevels habove)

theorem ofRules_of_denied (hlevels : queried.levels = before ++ level :: after)
    (hbefore : ∀ r ∈ rules, r.path ∉ before) (hdenies : ∃ r ∈ rules, r.path = level ∧ r.allowed = false) :
    ofRules rules queried = .denied level := by
  obtain ⟨r, hr, rfl, hdenied⟩ := hdenies
  have hspeaks : r.SpeaksOn queried := ⟨by simp [hlevels], Or.inl hdenied⟩
  exact ofRules_eq_of_prescribed
    ⟨mostSpecific_of_split hlevels hbefore ⟨r, ⟨hr, hspeaks⟩, rfl⟩, r, ⟨hr, hspeaks⟩, rfl, hdenied⟩

theorem ofRules_of_allowed (hlevels : queried.levels = before ++ level :: after)
    (hbefore : ∀ r ∈ rules, r.path ∉ before) (hallow : ∀ r ∈ rules, r.path = level → r.allowed = true)
    (hgrants : ∃ r ∈ rules, r.path = level ∧ (level = queried ∨ r.propagates = true)) :
    ofRules rules queried = .allowed level := by
  obtain ⟨r, hr, rfl, hgrant⟩ := hgrants
  have hspeaks : r.SpeaksOn queried := ⟨by simp [hlevels], Or.inr hgrant⟩
  exact ofRules_eq_of_prescribed
    ⟨mostSpecific_of_split hlevels hbefore ⟨r, ⟨hr, hspeaks⟩, rfl⟩, fun r' hr' => hallow r' hr'.1⟩

/-- Where all rules of the level keep to it, the path is decided as the level would be without them. -/
theorem ofRules_of_silent (hlevels : queried.levels = before ++ level :: after)
    (hbefore : ∀ r ∈ rules, r.path ∉ before) (hne : queried ≠ level)
    (hsilent : ∀ r ∈ rules, r.path = level → r.allowed = true ∧ r.propagates = false) :
    ofRules rules queried = ofRules (rules.filter (·.path != level)) level := by
  refine ofRules_congr (Set.ext fun r => ?_)
  have hown := Path.levels_of_split hlevels
  constructor
  · rintro ⟨hr, hspeaks⟩
    rcases mem_of_speaksOn hlevels hbefore hr hspeaks with hpath | habove
    · -- a rule of the level does not reach down to the path
      obtain ⟨hallowed, hpropagates⟩ := hsilent r hr hpath
      rcases hspeaks.counts with hc | hc | hc
      · simp [hallowed] at hc
      · exact absurd (hc.symm.trans hpath) hne
      · simp [hpropagates] at hc
    · have hlevel : r.path ≠ level := by
        intro heq
        have hlt := Path.length_lt_of_split hlevels habove
        rw [heq] at hlt
        exact absurd hlt (Nat.lt_irrefl _)
      refine ⟨List.mem_filter.mpr ⟨hr, by simpa using hlevel⟩, by simp [hown, habove], ?_⟩
      rcases hspeaks.counts with hc | hc | hc
      · exact Or.inl hc
      · exact absurd hc (Path.ne_of_split hlevels habove)
      · exact Or.inr (Or.inr hc)
  · rintro ⟨hmem, hspeaks⟩
    obtain ⟨hr, hne'⟩ := List.mem_filter.mp hmem
    have hlevel : r.path ≠ level := by simpa using hne'
    have habove : r.path ∈ after := by
      have hmem := hspeaks.mem_levels
      rw [hown, List.mem_cons] at hmem
      exact hmem.resolve_left hlevel
    refine ⟨hr, by simp [hlevels, habove], ?_⟩
    rcases hspeaks.counts with hc | hc | hc
    · exact Or.inl hc
    · exact absurd hc hlevel
    · exact Or.inr (Or.inr hc)

/-! ## The level as a path of its own -/

/-- At a level itself every rule of the level speaks. -/
theorem ofRules_self (rules : List Rule) (hlevels : level.levels = level :: after) :
    ((∃ r ∈ rules, r.path = level ∧ r.allowed = false) ∧ ofRules rules level = .denied level) ∨
    ((∀ r ∈ rules, r.path = level → r.allowed = true) ∧ (∃ r ∈ rules, r.path = level) ∧
      ofRules rules level = .allowed level) ∨
    ∀ r ∈ rules, r.path ≠ level := by
  have hsplit : level.levels = [] ++ level :: after := hlevels
  have hbefore : ∀ r ∈ rules, r.path ∉ [] := fun r _ => List.not_mem_nil
  by_cases hdenies : ∃ r ∈ rules, r.path = level ∧ r.allowed = false
  · exact Or.inl ⟨hdenies, ofRules_of_denied hsplit hbefore hdenies⟩
  · refine Or.inr ?_
    have hallow : ∀ r ∈ rules, r.path = level → r.allowed = true := by simpa using hdenies
    by_cases hbears : ∃ r ∈ rules, r.path = level
    · obtain ⟨r, hr, hpath⟩ := hbears
      exact Or.inl ⟨hallow, ⟨r, hr, hpath⟩, ofRules_of_allowed hsplit hbefore hallow ⟨r, hr, hpath, Or.inl rfl⟩⟩
    · exact Or.inr (by simpa using hbears)

/-- **A path inherits from the first of its levels that bears rules.**  What is decided at a level, with no rules at the
levels before it, is decided for the path.  Only an allowance that stands at the level and does not propagate ends
there: then the path is decided by what the level would inherit itself. -/
theorem ofRules_inherited (hlevels : queried.levels = before ++ level :: after)
    (hbefore : ∀ r ∈ rules, r.path ∉ before) :
    (ofRules rules level ≠ .allowed level → ofRules rules queried = ofRules rules level) ∧
    (ofRules rules level = .allowed level → (queried = level ∨ ∃ r ∈ rules, r.path = level ∧ r.propagates = true) →
      ofRules rules queried = .allowed level) ∧
    (ofRules rules level = .allowed level → queried ≠ level →
      (∀ r ∈ rules, r.path = level → r.propagates = false) →
      ofRules rules queried = ofRules (rules.filter (·.path != level)) level) := by
  rcases ofRules_self rules (Path.levels_of_split hlevels) with ⟨hdenies, hdenied⟩ |
    ⟨hallow, ⟨r, hr, hpath⟩, hallowed⟩ | hnone
  · have hsame := ofRules_of_denied hlevels hbefore hdenies
    simp [hdenied, hsame]
  · refine ⟨fun h => absurd hallowed h, ?_, ?_⟩
    · rintro - (rfl | ⟨r', hr', hpath', hpropagates⟩)
      · exact hallowed
      · exact ofRules_of_allowed hlevels hbefore hallow ⟨r', hr', hpath', Or.inr hpropagates⟩
    · intro _ hne hkeep
      exact ofRules_of_silent hlevels hbefore hne fun r' hr' hpath' => ⟨hallow r' hr' hpath', hkeep r' hr' hpath'⟩
  · have hsame : ofRules rules queried = ofRules rules level := by
      by_cases hne : queried = level
      · rw [hne]
      · have hall : rules.filter (·.path != level) = rules :=
          List.filter_eq_self.mpr fun r hr => by simpa using hnone r hr
        rw [ofRules_of_silent hlevels hbefore hne fun r hr hpath => absurd hpath (hnone r hr), hall]
    refine ⟨fun _ => hsame, fun h _ => hsame.trans h, fun h => ?_⟩
    -- a decision at the level takes a rule that stands there
    obtain ⟨r, ⟨hr, -⟩, hpath⟩ := (mostSpecific_of_decided (Or.inl h)).spoken
    exact absurd hpath (hnone r hr)

/-- Below a node, and a doubled slash, where one rule stands at the node and another at the root: a denial at the node
is inherited, an allowance if it propagates, and otherwise what the root allows. -/
theorem ofRules_inherited_node :
    ofRules [⟨.ofString "/a", false, false⟩, ⟨.root, true, true⟩] (.ofString "/a//b") = .denied (.ofString "/a") ∧
    ofRules [⟨.ofString "/a", true, true⟩, ⟨.root, false, true⟩] (.ofString "/a//b") = .allowed (.ofString "/a") ∧
    ofRules [⟨.ofString "/a", true, false⟩, ⟨.root, true, true⟩] (.ofString "/a//b") = .allowed .root := by
  have hlevels : (Path.ofString "/a//b").levels =
      [.ofString "/a//b", .ofString "/a/"] ++ .ofString "/a" :: [.root] := by decide +kernel
  have hbefore : ∀ node root : Rule, node.path = .ofString "/a" → root.path = .root →
      ∀ r ∈ [node, root], r.path ∉ [.ofString "/a//b", .ofString "/a/"] := by
    intro node root hnode hroot r hr
    have hpath : r.path = .ofString "/a" ∨ r.path = .root := by
      rcases List.mem_cons.mp hr with rfl | hr
      · exact Or.inl hnode
      · exact Or.inr (List.mem_singleton.mp hr ▸ hroot)
    rcases hpath with hpath | hpath <;> rw [hpath] <;> decide
  refine ⟨?_, ?_, ?_⟩
  · obtain ⟨hinherits, -, -⟩ := ofRules_inherited hlevels
      (hbefore ⟨.ofString "/a", false, false⟩ ⟨.root, true, true⟩ rfl rfl)
    exact (hinherits (by decide +kernel)).trans (by decide +kernel)
  · obtain ⟨-, hinherits, -⟩ := ofRules_inherited hlevels
      (hbefore ⟨.ofString "/a", true, true⟩ ⟨.root, false, true⟩ rfl rfl)
    exact hinherits (by decide +kernel) (Or.inr ⟨_, List.mem_cons_self, rfl, rfl⟩)
  · obtain ⟨-, -, hends⟩ := ofRules_inherited hlevels
      (hbefore ⟨.ofString "/a", true, false⟩ ⟨.root, true, true⟩ rfl rfl)
    exact (hends (by decide +kernel) (by decide) (by decide)).trans (by decide +kernel)

end ResourceAccess.Decision
