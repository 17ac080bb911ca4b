import ResourceAccess.CommandLine.Run
import ResourceAccess.Engine
import ResourceAccess.Proofs.Decision.MostSpecific
import ResourceAccess.Proofs.Path.Subtree
import ResourceAccess.Proofs.Procedure.Attempt
import ResourceAccess.Proofs.Store.Candidates

/-!
# What a purge takes away

A purge looks its rows up by one exact path and one stem.  By the agreement of the two subtree tests it takes the
entries that are within the purged path and no others.  For checks this means that outside the region nothing changes,
and that inside it only what stands above the region is left to speak.

* `Store.purge_takes_region`: **a purge takes exactly the entries within the path**
* `Store.mem_candidates_purge`: the candidates that are left
* `Store.purge_confined`: **outside the region checks answer as before, and inside it by a level above it**
-/

namespace ResourceAccess

namespace Store

variable {s : Store} {top p : Path} {user : Id} {privilege : String}

def clearedOf (s : Store) (top : Path) : Store := { s with aces := s.aces.filter fun a => !a.path.isWithin top }

theorem purge_eq (top : Path) (s : Store) :
    s.purge top = (s.aces.countP (·.path.isWithin top), s.clearedOf top) := by
  simp only [purge, clearedOf, Path.covers_subtree]

theorem mem_aces_clearedOf {a : Ace} : a ∈ (s.clearedOf top).aces ↔ a ∈ s.aces ∧ a.path.isWithin top = false := by
  rw [clearedOf, List.mem_filter, Bool.not_eq_true']

theorem purge_clearedOf (top : Path) (s : Store) : (s.clearedOf top).purge top = (0, s.clearedOf top) := by
  have hcount : (s.clearedOf top).aces.countP (·.path.isWithin top) = 0 := by
    refine List.countP_eq_zero.mpr fun a ha => ?_
    rw [(mem_aces_clearedOf.mp ha).2]
    exact Bool.false_ne_true
  have htwice : (s.clearedOf top).clearedOf top = s.clearedOf top := by
    simp only [clearedOf, List.filter_filter, Bool.and_self]
  rw [purge_eq, hcount, htwice]

/-- **A purge takes the region and nothing else.**  Asked for directly, after a deleted resource or from the command
line, it answers with the number of entries within the path and leaves the store without them; doing it once more takes
nothing. -/
theorem purge_takes_region (now later : Stamp) (top : Path) (s : Store) : ∃ after taken,
    (∀ op ∈ [Operation.purge top, .resourceDeleted top], op.run now s = (.ok (.count taken), after) ∧
      ∀ e : Engine, e.connection = .free →
        { e with store := s }.run now op = (.ok (.count taken), { e with store := after })) ∧
    Command.execute now (.purge top) s = (.printed (.count taken), after) ∧
    after = { s with aces := s.aces.filter fun a => !a.path.isWithin top } ∧
    taken = (s.aces.filter (·.path.isWithin top)).length ∧
    (∀ a ∈ after.aces, a.path.isWithin top = false) ∧
    (Operation.purge top).run later after = (.ok (.count 0), after) := by
  have hperform : ∀ op ∈ [Operation.purge top, .resourceDeleted top],
      op.fault? = none ∧ op.perform now s = .write .count (s.purge top) := by
    simp [Operation.fault?, Operation.perform]
  refine ⟨s.clearedOf top, s.aces.countP (·.path.isWithin top), ?_, ?_, rfl, List.countP_eq_length_filter, ?_, ?_⟩
  · intro op hop
    obtain ⟨hfault, hwork⟩ := hperform op hop
    rw [purge_eq] at hwork
    constructor
    · rw [Operation.run, hfault, hwork]
      rfl
    · intro e hfree
      simp only [Engine.run_eq, hfault, Engine.refusal?, hfree, hwork, Reply.write]
  · rw [Command.execute, Pace.run_in_time rfl]
    simp only [Command.report, Operation.run, Operation.fault?, Operation.perform, Reply.write, purge_eq]
  · intro a ha
    exact (mem_aces_clearedOf.mp ha).2
  · simp only [Operation.run, Operation.fault?, Operation.perform, Reply.write, purge_clearedOf]

/-- A store with one privilege held by one role, and entries of one user at the paths, each with its flag. -/
def consoleEntries (entries : List (String × Bool)) : Store where
  privileges := [⟨.issue .privilege 1, "Node.Console", none, ⟨""⟩, ⟨""⟩⟩]
  memberships := [⟨.issue .role 1, .issue .privilege 1⟩]
  aces := entries.map fun entry =>
    ⟨.issue .ace 1, .ofString entry.1, .user (.issue .user 1), .issue .role 1, entry.2, true, ⟨""⟩, ⟨""⟩⟩

/-- Entries at a path, beside it under a name that begins alike, below it, and at a relative path. -/
def siblingEntries : Store := consoleEntries [("/é1", true), ("/é1b", true), ("/é1/x", false), ("é1", true)]

/-- A sibling whose name begins alike stays, and trailing slashes do not matter. -/
theorem purge_takes_region_siblings :
    (Operation.purge (.ofString "/é1//")).run ⟨""⟩ siblingEntries =
      (.ok (.count 2), consoleEntries [("/é1b", true), ("é1", true)]) ∧
    (({ store := siblingEntries } : Engine).run ⟨""⟩ (.resourceDeleted (.ofString "/é1//"))).1 = .ok (.count 2) ∧
    Command.execute ⟨""⟩ (.purge (.ofString "/é1//")) siblingEntries =
      (.printed (.count 2), consoleEntries [("/é1b", true), ("é1", true)]) ∧
    (Path.ofString "/é1b").isWithin (.ofString "/é1//") = false := by
  obtain ⟨after, taken, hops, hcommand, hafter, htaken, hout, -⟩ :=
    purge_takes_region ⟨""⟩ ⟨""⟩ (.ofString "/é1//") siblingEntries
  have htwo : taken = 2 := htaken.trans (by decide)
  have hrest : after = consoleEntries [("/é1b", true), ("é1", true)] := hafter.trans (by decide)
  rw [htwo, hrest] at hops hcommand
  rw [hrest] at hout
  refine ⟨(hops _ (by simp)).1, ?_, hcommand, hout _ List.mem_cons_self⟩
  have hengine := (hops (.resourceDeleted (.ofString "/é1//")) (by simp)).2 {} rfl
  rw [hengine]

/-! ## Checks after a purge -/

theorem mem_candidates_purge {r : Rule} : r ∈ (s.purge top).2.candidates user privilege ↔
    r ∈ s.candidates user privilege ∧ r.path.isWithin top = false := by
  rw [purge_eq, mem_candidates_iff, mem_candidates_iff]
  constructor
  · rintro ⟨a, ha, hsubject, rfl, hjoined⟩
    obtain ⟨hmem, hout⟩ := mem_aces_clearedOf.mp ha
    exact ⟨⟨a, hmem, hsubject, rfl, hjoined⟩, hout⟩
  · rintro ⟨⟨a, hmem, hsubject, rfl, hjoined⟩, hout⟩
    exact ⟨a, mem_aces_clearedOf.mpr ⟨hmem, hout⟩, hsubject, rfl, hjoined⟩

/-- Outside the region no level of the path is in it, so the same rules speak. -/
theorem explain_purge_outside (hp : p.chars ≠ []) (hout : p.isWithin top = false) :
    (s.purge top).2.explain user p privilege = s.explain user p privilege := by
  refine Decision.ofRules_congr (Set.ext fun r => and_congr_left fun hspeaks => ?_)
  rw [mem_candidates_purge, and_iff_left_iff_imp]
  intro _
  rw [Bool.eq_false_iff]
  intro hin
  rw [Path.isWithin_of_mem_levels hp hspeaks.mem_levels hin] at hout
  exact absurd hout (by simp)

/-- What speaks on a path of the region after the purge speaks on all of them. -/
theorem speaksOn_of_isWithin {r : Rule} {p₁ p₂ : Path} (h₁ : p₁.isWithin top = true) (h₂ : p₂.isWithin top = true)
    (hout : r.path.isWithin top = false) (hspeaks : r.SpeaksOn p₁) : r.SpeaksOn p₂ where
  mem_levels := (Path.mem_levels_iff_of_isWithin h₁ h₂ hout).mp hspeaks.mem_levels
  counts := by
    rcases hspeaks.counts with hdenies | hpath | hpropagates
    · exact Or.inl hdenies
    · rw [hpath, h₁] at hout
      exact absurd hout (by simp)
    · exact Or.inr (Or.inr hpropagates)

theorem explain_purge_inside {p₁ p₂ : Path} (h₁ : p₁.isWithin top = true) (h₂ : p₂.isWithin top = true) :
    (s.purge top).2.explain user p₁ privilege = (s.purge top).2.explain user p₂ privilege := by
  refine Decision.ofRules_congr (Set.ext fun r => and_congr_right fun hr => ?_)
  have hout := (mem_candidates_purge.mp hr).2
  exact ⟨speaksOn_of_isWithin h₁ h₂ hout, speaksOn_of_isWithin h₂ h₁ hout⟩

/-- The level that decides bears a rule, and a purge leaves none in the region. -/
theorem level_purge_outside {level : Path}
    (hdecides : (s.purge top).2.explain user p privilege = .allowed level ∨
      (s.purge top).2.explain user p privilege = .denied level) : level.isWithin top = false := by
  obtain ⟨r, ⟨hr, -⟩, rfl⟩ := (Decision.mostSpecific_of_decided hdecides).spoken
  exact (mem_candidates_purge.mp hr).2

/-- **A purge is confined to its region.**  On rooted paths outside it checks answer as before.  Within it they all
answer alike, and by a level outside. -/
theorem purge_confined (s : Store) (top : Path) (user : Id) (privilege : String) :
    (∀ p : Path, p.isRooted = true → p.isWithin top = false →
      (s.purge top).2.explain user p privilege = s.explain user p privilege) ∧
    ∀ p₁ p₂ : Path, p₁.isWithin top = true → p₂.isWithin top = true →
      (s.purge top).2.explain user p₁ privilege = (s.purge top).2.explain user p₂ privilege ∧
      ∀ level, (s.purge top).2.explain user p₁ privilege = .allowed level ∨
        (s.purge top).2.explain user p₁ privilege = .denied level → level.isWithin top = false := by
  constructor
  · intro p hrooted hout
    refine explain_purge_outside ?_ hout
    obtain ⟨rest, hp⟩ := Path.isRooted_iff.mp hrooted
    simp [hp]
  · intro p₁ p₂ h₁ h₂
    exact ⟨explain_purge_inside h₁ h₂, fun level => level_purge_outside⟩

/-- The denial at a node goes with the node: below it the grant above speaks again, and beside it nothing changes. -/
theorem purge_confined_node :
    ((consoleEntries [("/n", true), ("/n/1", false)]).purge (.ofString "/n/1")).2.explain (.issue .user 1)
      (.ofString "/n/2") "Node.Console" = .allowed (.ofString "/n") ∧
    ((consoleEntries [("/n", true), ("/n/1", false)]).purge (.ofString "/n/1")).2.explain (.issue .user 1)
      (.ofString "/n/1") "Node.Console" = .allowed (.ofString "/n") ∧
    (Path.ofString "/n").isWithin (.ofString "/n/1") = false := by
  obtain ⟨houtside, hinside⟩ := purge_confined (consoleEntries [("/n", true), ("/n/1", false)]) (.ofString "/n/1")
    (.issue .user 1) "Node.Console"
  have hbeside := houtside (.ofString "/n/2") (by decide) (by decide)
  obtain ⟨halike, hlevel⟩ := hinside (.ofString "/n/1") (.ofString "/n/1/x") (by decide) (by decide)
  have hbelow : ((consoleEntries [("/n", true), ("/n/1", false)]).purge (.ofString "/n/1")).2.explain (.issue .user 1)
      (.ofString "/n/1/x") "Node.Console" = .allowed (.ofString "/n") := by decide +kernel
  rw [hbelow] at halike
  exact ⟨hbeside.trans (by decide +kernel), halike, hlevel _ (Or.inl halike)⟩

end Store

end ResourceAccess
