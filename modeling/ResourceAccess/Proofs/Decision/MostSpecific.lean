import Mathlib.Data.Set.Basic
import ResourceAccess.Decision
import ResourceAccess.Proofs.Path.Levels

/-!
# The most specific rule wins

`Decision.ofRules` walks along the levels of the queried path.  Here the decision is described without the walk: of the
rules that speak on the path the ones with the longest path decide, and one that denies there outweighs the others.
The description reads a set of rules, so neither their order nor their number matters.

* `speaking`: the rules that count for a path
* `ofRules_eq_iff_prescribed`: **a decision is reached exactly when the set of rules that speak prescribes it**
* `ofRules_congr`: queries on which the same rules speak agree
-/

namespace ResourceAccess

/-- A rule speaks on a path if it stands at one of the path's levels and denies, stands at the path itself or
propagates. -/
structure Rule.SpeaksOn (r : Rule) (queried : Path) : Prop where
  mem_levels : r.path ∈ queried.levels
  counts : r.allowed = false ∨ r.path = queried ∨ r.propagates = true

namespace Decision

def speaking (rules : List Rule) (queried : Path) : Set Rule := {r | r ∈ rules ∧ r.SpeaksOn queried}

/-- The longest path among the rules. -/
structure MostSpecific (rules : Set Rule) (level : Path) : Prop where
  spoken : ∃ r ∈ rules, r.path = level
  longest : ∀ r ∈ rules, r.path.chars.length ≤ level.chars.length

/-- What rules that speak say as a whole: the longest path first, and denial before allowance. -/
def Prescribed (rules : Set Rule) : Decision → Prop
  | .noMatchingRule => rules = ∅
  | .denied level => MostSpecific rules level ∧ ∃ r ∈ rules, r.path = level ∧ r.allowed = false
  | .allowed level => MostSpecific rules level ∧ ∀ r ∈ rules, r.path = level → r.allowed = true

variable {rules : List Rule} {queried level : Path}

/-! ## One level -/

theorem atLevel_eq_none_iff : atLevel? rules queried level = none ↔
    ∀ r ∈ rules, r.path = level → r.allowed = true ∧ r.path ≠ queried ∧ r.propagates = false := by
  dsimp only [atLevel?]
  split
  · rename_i hdeny
    obtain ⟨r, hr, hlevel, hallowed⟩ : ∃ r ∈ rules, r.path = level ∧ r.allowed = false := by
      simpa [and_assoc] using hdeny
    constructor
    · intro h
      exact absurd h (by simp)
    · intro h
      have htrue := (h r hr hlevel).1
      rw [hallowed] at htrue
      exact absurd htrue (by simp)
  · rename_i hdeny
    have hallow : ∀ r ∈ rules, r.path = level → r.allowed = true := by simpa using hdeny
    split
    · rename_i hgrant
      obtain ⟨r, hr, hlevel, hspeaks⟩ :
          ∃ r ∈ rules, r.path = level ∧ (level = queried ∨ r.propagates = true) := by
        simpa [and_assoc] using hgrant
      constructor
      · intro h
        exact absurd h (by simp)
      · intro h
        obtain ⟨-, hne, hprop⟩ := h r hr hlevel
        rcases hspeaks with hq | hp
        · exact absurd (hlevel.trans hq) hne
        · rw [hp] at hprop
          exact absurd hprop (by simp)
    · rename_i hgrant
      have hsilent : ∀ r ∈ rules, r.path = level → level ≠ queried ∧ r.propagates = false := by
        simpa using hgrant
      constructor
      · intro _ r hr hlevel
        obtain ⟨hne, hprop⟩ := hsilent r hr hlevel
        exact ⟨hallow r hr hlevel, hlevel ▸ hne, hprop⟩
      · intro _
        rfl

theorem atLevel_eq_some {d : Decision} (h : atLevel? rules queried level = some d) :
    (d = .denied level ∧ ∃ r ∈ rules, r.path = level ∧ r.allowed = false) ∨
      (d = .allowed level ∧ ∀ r ∈ rules, r.path = level → r.allowed = true) := by
  dsimp only [atLevel?] at h
  split at h
  · rename_i hdeny
    exact Or.inl ⟨(Option.some.inj h).symm, by simpa [and_assoc] using hdeny⟩
  · rename_i hdeny
    split at h
    · exact Or.inr ⟨(Option.some.inj h).symm, by simpa using hdeny⟩
    · exact absurd h (by simp)

theorem atLevel_eq_none_iff_silent (hlevel : level ∈ queried.levels) :
    atLevel? rules queried level = none ↔ ∀ r ∈ speaking rules queried, r.path ≠ level := by
  rw [atLevel_eq_none_iff]
  constructor
  · rintro h r ⟨hr, hspeaks⟩ hpath
    obtain ⟨hallowed, hne, hprop⟩ := h r hr hpath
    rcases hspeaks.counts with hc | hc | hc
    · simp [hc] at hallowed
    · exact hne hc
    · simp [hc] at hprop
  · intro h r hr hpath
    by_contra hn
    refine h r ⟨hr, hpath ▸ hlevel, ?_⟩ hpath
    rw [not_and_or, not_and_or, not_not, Bool.not_eq_true, Bool.not_eq_false] at hn
    exact hn

/-! ## The walk and the prescription -/

/-- What the walk finds is prescribed: the levels before the deciding one are silent, and the ones after it shorter. -/
theorem ofRules_prescribed (rules : List Rule) (queried : Path) :
    Prescribed (speaking rules queried) (ofRules rules queried) := by
  unfold ofRules
  cases hfind : queried.levels.findSome? (atLevel? rules queried) with
  | none =>
    refine Set.eq_empty_iff_forall_notMem.mpr fun r hr => ?_
    have hlevel := hr.2.mem_levels
    have hnone := List.findSome?_eq_none_iff.mp hfind r.path hlevel
    exact (atLevel_eq_none_iff_silent hlevel).mp hnone r hr rfl
  | some d =>
    obtain ⟨before, level, after, hsplit, hd, hsilent⟩ := List.findSome?_eq_some_iff.mp hfind
    have hlevel : level ∈ queried.levels := by simp [hsplit]
    have hspoken : ∃ r ∈ speaking rules queried, r.path = level := by
      by_contra hno
      have hnone : atLevel? rules queried level = none :=
        (atLevel_eq_none_iff_silent hlevel).mpr fun r hr hpath => hno ⟨r, hr, hpath⟩
      rw [hnone] at hd
      exact absurd hd (by simp)
    have hlongest : ∀ r ∈ speaking rules queried, r.path.chars.length ≤ level.chars.length := by
      intro r hr
      have hmem := hr.2.mem_levels
      rw [hsplit, List.mem_append, List.mem_cons] at hmem
      rcases hmem with hbefore | heq | hafter
      · exact absurd rfl ((atLevel_eq_none_iff_silent hr.2.mem_levels).mp (hsilent _ hbefore) r hr)
      · exact Nat.le_of_eq (by rw [heq])
      · exact Nat.le_of_lt (Path.length_lt_of_split hsplit hafter)
    rcases atLevel_eq_some hd with ⟨rfl, r, hr, hpath, hdenies⟩ | ⟨rfl, hallow⟩
    · exact ⟨⟨hspoken, hlongest⟩, r, ⟨hr, hpath ▸ hlevel, Or.inl hdenies⟩, hpath, hdenies⟩
    · exact ⟨⟨hspoken, hlongest⟩, fun r hr hpath => hallow r hr.1 hpath⟩

/-- The level of a decision is the most specific one that bears a rule which speaks. -/
theorem mostSpecific_of_decided (h : ofRules rules queried = .allowed level ∨ ofRules rules queried = .denied level) :
    MostSpecific (speaking rules queried) level := by
  have hprescribed := ofRules_prescribed rules queried
  rcases h with h | h
  · rw [h] at hprescribed
    exact hprescribed.1
  · rw [h] at hprescribed
    exact hprescribed.1

theorem MostSpecific.nonempty {rules : Set Rule} (h : MostSpecific rules level) : rules ≠ ∅ := by
  obtain ⟨r, hr, -⟩ := h.spoken
  exact Set.nonempty_iff_ne_empty.mp ⟨r, hr⟩

/-- Levels of one length are one level, so the most specific one is unique. -/
theorem MostSpecific.unique {level' : Path} (h : MostSpecific (speaking rules queried) level)
    (h' : MostSpecific (speaking rules queried) level') : level = level' := by
  obtain ⟨r, hr, rfl⟩ := h.spoken
  obtain ⟨r', hr', rfl⟩ := h'.spoken
  exact Path.eq_of_mem_levels_of_length_eq hr.2.mem_levels hr'.2.mem_levels
    (Nat.le_antisymm (h'.longest r hr) (h.longest r' hr'))

theorem Prescribed.not_allowed {level' : Path} (hd : Prescribed (speaking rules queried) (.denied level)) :
    ¬ Prescribed (speaking rules queried) (.allowed level') := by
  intro ha
  obtain ⟨r, hr, hpath, hdenies⟩ := hd.2
  have hallows := ha.2 r hr (hpath.trans (hd.1.unique ha.1))
  rw [hdenies] at hallows
  exact absurd hallows (by simp)

theorem Prescribed.unique {d e : Decision} (hd : Prescribed (speaking rules queried) d)
    (he : Prescribed (speaking rules queried) e) : d = e := by
  cases d with
  | noMatchingRule =>
    cases e with
    | noMatchingRule => rfl
    | denied level => exact absurd hd he.1.nonempty
    | allowed level => exact absurd hd he.1.nonempty
  | denied level =>
    cases e with
    | noMatchingRule => exact absurd he hd.1.nonempty
    | denied level' => rw [hd.1.unique he.1]
    | allowed level' => exact absurd he hd.not_allowed
  | allowed level =>
    cases e with
    | noMatchingRule => exact absurd he hd.1.nonempty
    | denied level' => exact absurd hd he.not_allowed
    | allowed level' => rw [hd.1.unique he.1]

theorem ofRules_eq_of_prescribed {d : Decision} (h : Prescribed (speaking rules queried) d) :
    ofRules rules queried = d := (ofRules_prescribed rules queried).unique h

/-- Two queries on which the same rules speak have one decision, even if their paths differ. -/
theorem ofRules_congr {rules' : List Rule} {queried' : Path}
    (h : speaking rules queried = speaking rules' queried') :
    ofRules rules queried = ofRules rules' queried' :=
  ofRules_eq_of_prescribed (h ▸ ofRules_prescribed rules' queried')

/-- **The most specific rules decide.**  Whatever the order of the rules and however often they are listed, the
decision is the one that the set of rules speaking on the path prescribes. -/
theorem ofRules_eq_iff_prescribed (rules : List Rule) (queried : Path) (d : Decision) :
    (ofRules rules queried = d ↔ Prescribed (speaking rules queried) d) ∧
      ∀ others : List Rule, speaking others queried = speaking rules queried →
        ofRules others queried = ofRules rules queried := by
  refine ⟨⟨?_, ofRules_eq_of_prescribed⟩, fun others h => ofRules_congr h⟩
  rintro rfl
  exact ofRules_prescribed rules queried

/-- A denial that does not propagate decides below itself, first or last and listed twice. -/
theorem ofRules_denied_in_any_order :
    ofRules [⟨.ofString "/a", true, true⟩, ⟨.ofString "/a/b", false, false⟩] (.ofString "/a/b/c") =
      .denied (.ofString "/a/b") ∧
    ofRules [⟨.ofString "/a/b", false, false⟩, ⟨.ofString "/a", true, true⟩, ⟨.ofString "/a/b", false, false⟩]
      (.ofString "/a/b/c") = .denied (.ofString "/a/b") := by
  have hlevels : (Path.ofString "/a/b/c").levels =
      [.ofString "/a/b/c", .ofString "/a/b", .ofString "/a", .root] := by decide +kernel
  have hdeny : Rule.SpeaksOn ⟨.ofString "/a/b", false, false⟩ (.ofString "/a/b/c") :=
    ⟨by simp [hlevels], Or.inl rfl⟩
  obtain ⟨hiff, hothers⟩ := ofRules_eq_iff_prescribed [⟨.ofString "/a", true, true⟩, ⟨.ofString "/a/b", false, false⟩]
    (.ofString "/a/b/c") (.denied (.ofString "/a/b"))
  have hdenied := hiff.mpr ⟨⟨⟨_, ⟨by simp, hdeny⟩, rfl⟩, ?_⟩, _, ⟨by simp, hdeny⟩, rfl, rfl⟩
  · refine ⟨hdenied, ?_⟩
    rw [hothers _ (Set.ext fun r => and_congr_left fun _ => ?_), hdenied]
    simp only [List.mem_cons, List.not_mem_nil, or_false]
    grind
  · rintro r ⟨hr, -⟩
    have hpath : r = ⟨.ofString "/a", true, true⟩ ∨ r = ⟨.ofString "/a/b", false, false⟩ := by simpa using hr
    rcases hpath with rfl | rfl <;> decide

end Decision

end ResourceAccess
