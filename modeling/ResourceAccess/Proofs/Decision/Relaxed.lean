import ResourceAccess.Proofs.Decision.MostSpecific

/-!
# Rules that relax others

A rule relaxes another at the same path if it allows where that one allows, and propagates where that one allows and
propagates.  Rules relax others if they relax all that allows, and if what they deny was denied.  It does not matter
which other rules there are: the effect of each rule hangs on all the others along the path, and the direction does not.

* `Says`: what is said at a level, which is all that a decision depends on
* `Relaxes.isAllowed`: **what was allowed is allowed under relaxed rules**
* `ofRules_eq_of_relaxes`: rules that relax each other decide alike
-/

namespace ResourceAccess

/-- The rule is at least as lenient as the other one at its path. -/
structure Rule.Relaxes (r' r : Rule) : Prop where
  path : r'.path = r.path
  allowed : r.allowed = true → r'.allowed = true
  propagates : r.allowed = true → r.propagates = true → r'.propagates = true

namespace Decision

/-- The rules relax all others that allow, and what they deny the others deny. -/
structure Relaxes (rules' rules : List Rule) : Prop where
  allows : ∀ r ∈ rules, r.allowed = true → ∃ r' ∈ rules', r'.Relaxes r
  denies : ∀ r' ∈ rules', r'.allowed = false → ∃ r ∈ rules, r'.Relaxes r

/-- Some rule that speaks on the path allows, or denies, at the level. -/
def Says (rules : List Rule) (queried level : Path) (allowed : Bool) : Prop :=
  ∃ r ∈ speaking rules queried, r.path = level ∧ r.allowed = allowed

variable {rules rules' : List Rule} {queried level : Path}

/-! ## What is said at a level -/

theorem says_of_speaking {r : Rule} (hr : r ∈ speaking rules queried) : Says rules queried r.path r.allowed :=
  ⟨r, hr, rfl, rfl⟩

theorem Says.mem_levels {allowed : Bool} (h : Says rules queried level allowed) : level ∈ queried.levels := by
  obtain ⟨r, hr, rfl, -⟩ := h
  exact hr.2.mem_levels

theorem Relaxes.says_true (h : Relaxes rules' rules) (hsaid : Says rules queried level true) :
    Says rules' queried level true := by
  obtain ⟨r, ⟨hr, hspeaks⟩, rfl, hallowed⟩ := hsaid
  obtain ⟨r', hr', hrelaxes⟩ := h.allows r hr hallowed
  refine ⟨r', ⟨hr', hrelaxes.path ▸ hspeaks.mem_levels, ?_⟩, hrelaxes.path, hrelaxes.allowed hallowed⟩
  rcases hspeaks.counts with hc | hc | hc
  · simp [hallowed] at hc
  · exact Or.inr (Or.inl (hrelaxes.path.trans hc))
  · exact Or.inr (Or.inr (hrelaxes.propagates hallowed hc))

theorem Relaxes.says_false (h : Relaxes rules' rules) (hsaid : Says rules' queried level false) :
    Says rules queried level false := by
  obtain ⟨r', ⟨hr', hspeaks⟩, rfl, hdenied⟩ := hsaid
  obtain ⟨r, hr, hrelaxes⟩ := h.denies r' hr' hdenied
  have hdenies : r.allowed = false := by
    by_contra hallowed
    rw [hrelaxes.allowed (by simpa using hallowed)] at hdenied
    exact absurd hdenied (by simp)
  exact ⟨r, ⟨hr, hrelaxes.path ▸ hspeaks.mem_levels, Or.inl hdenies⟩, hrelaxes.path.symm, hdenies⟩

/-! ## Decisions -/

theorem isAllowed_iff {d : Decision} : d.isAllowed = true ↔ ∃ level, d = .allowed level := by
  cases d <;> simp [isAllowed]

/-- **What was allowed is allowed under relaxed rules.**  The level that allowed still says so, and a denial that
outweighed it would stand there already. -/
theorem Relaxes.isAllowed (h : Relaxes rules' rules) (hallowed : (ofRules rules queried).isAllowed = true) :
    (ofRules rules' queried).isAllowed = true := by
  obtain ⟨level, hlevel⟩ := isAllowed_iff.mp hallowed
  have hprescribed := ofRules_prescribed rules queried
  rw [hlevel] at hprescribed
  obtain ⟨⟨⟨r, hr, hpath⟩, hlongest⟩, hallow⟩ := hprescribed
  have hsaid : Says rules queried level true := ⟨r, hr, hpath, hallow r hr hpath⟩
  obtain ⟨r', hr', hpath', -⟩ := h.says_true hsaid
  have hprescribed' := ofRules_prescribed rules' queried
  cases hdecided : ofRules rules' queried with
  | allowed level' => rfl
  | noMatchingRule =>
    rw [hdecided] at hprescribed'
    exact absurd hr' (Set.eq_empty_iff_forall_notMem.mp hprescribed' r')
  | denied level' =>
    rw [hdecided] at hprescribed'
    obtain ⟨⟨-, hlongest'⟩, d', hd', hdpath', hdenies'⟩ := hprescribed'
    obtain ⟨d, hd, hdpath, hdenies⟩ := h.says_false ⟨d', hd', hdpath', hdenies'⟩
    have hle : level'.chars.length ≤ level.chars.length := hdpath ▸ hlongest d hd
    have hge : level.chars.length ≤ level'.chars.length := hpath' ▸ hlongest' r' hr'
    have hsame : level' = level := Path.eq_of_mem_levels_of_length_eq (hdpath ▸ hd.2.mem_levels) hsaid.mem_levels
      (Nat.le_antisymm hle hge)
    rw [hallow d hd (hdpath.trans hsame)] at hdenies
    exact absurd hdenies (by simp)

/-- A decision depends on what is said at the levels, and on nothing else. -/
theorem ofRules_eq_of_says (h : ∀ level allowed, Says rules' queried level allowed ↔ Says rules queried level allowed) :
    ofRules rules' queried = ofRules rules queried := by
  have hspoken : ∀ r ∈ speaking rules queried, ∃ r' ∈ speaking rules' queried, r'.path = r.path := by
    intro r hr
    obtain ⟨r', hr', hpath, -⟩ := (h _ _).mpr (says_of_speaking hr)
    exact ⟨r', hr', hpath⟩
  have hspecific : ∀ level, MostSpecific (speaking rules queried) level →
      MostSpecific (speaking rules' queried) level := by
    rintro level ⟨⟨r, hr, rfl⟩, hlongest⟩
    refine ⟨hspoken r hr, fun r' hr' => ?_⟩
    obtain ⟨r'', hr'', hpath, -⟩ := (h _ _).mp (says_of_speaking hr')
    exact hpath ▸ hlongest r'' hr''
  refine ofRules_eq_of_prescribed ?_
  have hprescribed := ofRules_prescribed rules queried
  cases hdecided : ofRules rules queried with
  | noMatchingRule =>
    rw [hdecided] at hprescribed
    refine Set.eq_empty_iff_forall_notMem.mpr fun r' hr' => ?_
    obtain ⟨r, hr, -⟩ := (h _ _).mp (says_of_speaking hr')
    exact absurd hr (Set.eq_empty_iff_forall_notMem.mp hprescribed r)
  | denied level =>
    rw [hdecided] at hprescribed
    exact ⟨hspecific level hprescribed.1, (h level false).mpr hprescribed.2⟩
  | allowed level =>
    rw [hdecided] at hprescribed
    refine ⟨hspecific level hprescribed.1, fun r' hr' hpath' => ?_⟩
    obtain ⟨r, hr, hpath, hallowed⟩ := (h _ _).mp (says_of_speaking hr')
    rw [← hallowed]
    exact hprescribed.2 r hr (hpath.trans hpath')

theorem ofRules_eq_of_relaxes (h : Relaxes rules' rules) (h' : Relaxes rules rules') :
    ofRules rules' queried = ofRules rules queried := by
  refine ofRules_eq_of_says fun level allowed => ?_
  cases allowed with
  | true => exact ⟨h'.says_true, h.says_true⟩
  | false => exact ⟨h.says_false, h'.says_false⟩

end Decision

end ResourceAccess
