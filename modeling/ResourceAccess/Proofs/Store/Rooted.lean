import ResourceAccess.Proofs.Store.Candidates

/-!
# Rules reach rooted paths only

Entries are made at rooted paths and moved to rooted paths, so in a reachable store every rule stands at one.  The
levels of a path are rooted when the path is.  So no rule decides a path that does not start with a slash, with one
exception: the empty path stands at the root, and a rule there that propagates decides it.

* `Store.Sound.isRooted_of_mem_candidates`: where the rules of a sound store stand
* `Engine.unrooted_undecided`: **an unrooted path that is not empty matches no rule**
* `Engine.empty_decided_at_root`: the empty path may match one
-/

namespace ResourceAccess

namespace Store

variable {s : Store} {user : Id} {path : Path} {privilege : String}

theorem Sound.isRooted_of_mem_candidates (h : s.Sound) {r : Rule} (hr : r ∈ s.candidates user privilege) :
    r.path.isRooted = true := by
  obtain ⟨a, ha, -, rfl, -⟩ := mem_candidates_iff.mp hr
  have haccepted : a.path.fault? = none := h.aces.keys_sound a ha
  exact (Path.fault_eq_none_iff.mp haccepted).1

theorem explain_unrooted (h : s.Sound) (user : Id) (privilege : String) (hunrooted : path.isRooted = false)
    (hne : path.chars ≠ []) :
    s.explain user path privilege = .noMatchingRule := by
  refine Decision.ofRules_eq_of_prescribed (Set.eq_empty_iff_forall_notMem.mpr fun r hr => ?_)
  have hrooted := h.isRooted_of_mem_candidates hr.1
  rw [Path.isRooted_of_mem_levels hne hr.2.mem_levels, hunrooted] at hrooted
  exact absurd hrooted (by simp)

end Store

namespace Engine

variable {e : Engine}

/-- **No rule decides an unrooted path that is not empty.**  Of the paths that do not start with a slash only the empty
one has the root among its levels.  On a free connection a check on any other answers that no rule matches. -/
theorem unrooted_undecided (hreachable : Reachable e.store) (hfree : e.connection = .free) (now : Stamp) (user : Id)
    (path : Path) (privilege : String) (hunrooted : path.isRooted = false) :
    (Path.root ∈ path.levels ↔ path.chars = []) ∧
    (path.chars ≠ [] →
      (∀ level ∈ path.levels, level.isRooted = false) ∧
      (e.run now (.explain user path privilege)).1 = .ok (.decision .noMatchingRule) ∧
      (e.run now (.check user path privilege)).1 = .ok (.flag false)) := by
  constructor
  · rw [Path.root_mem_levels_iff, hunrooted, or_iff_right Bool.false_ne_true]
  · intro hne
    have hexplain := Store.explain_unrooted hreachable.sound user privilege hunrooted hne
    refine ⟨fun level hlevel => ?_, ?_, ?_⟩
    · rw [Path.isRooted_of_mem_levels hne hlevel, hunrooted]
    · rw [run_eq_perform hfree rfl, Operation.perform, hexplain]
      rfl
    · rw [run_eq_perform hfree rfl, Operation.perform, Store.check, hexplain]
      rfl

def rootHistory : History :=
  [.createUser "ann", .createRole "operator" none, .createPrivilege "Node.Console" none,
    .addPrivilege (.issue .role 1) (.issue .privilege 1),
    .createAce (.forUser .root (.issue .user 1) (.issue .role 1))].map fun op => (⟨""⟩, op)

/-- Relative paths are out of reach of an entry at the root, whatever their slashes. -/
theorem unrooted_undecided_relative :
    Path.root ∉ (Path.ofString "nodes//1/").levels ∧
    (({ store := Store.after {} rootHistory } : Engine).run ⟨""⟩
      (.explain (.issue .user 1) (.ofString "nodes//1/") "Node.Console")).1 = .ok (.decision .noMatchingRule) ∧
    (({ store := Store.after {} rootHistory } : Engine).run ⟨""⟩
      (.check (.issue .user 1) (.ofString "nodes//1/") "Node.Console")).1 = .ok (.flag false) := by
  have hreachable : Reachable (Store.after {} rootHistory) := Reachable.empty.after rootHistory
  obtain ⟨hroot, hundecided⟩ := unrooted_undecided (e := { store := Store.after {} rootHistory }) hreachable rfl ⟨""⟩
    (.issue .user 1) (.ofString "nodes//1/") "Node.Console" (by decide)
  obtain ⟨-, hexplain, hcheck⟩ := hundecided (by decide)
  exact ⟨fun hmem => absurd (hroot.mp hmem) (by decide), hexplain, hcheck⟩

/-- The empty path does not start with a slash either, and yet the root decides it. -/
theorem empty_decided_at_root :
    Reachable (Store.after {} rootHistory) ∧ (Path.ofString "").isRooted = false ∧
    Path.root ∈ (Path.ofString "").levels ∧
    (({ store := Store.after {} rootHistory } : Engine).run ⟨""⟩
      (.explain (.issue .user 1) (.ofString "") "Node.Console")).1 = .ok (.decision (.allowed .root)) ∧
    (({ store := Store.after {} rootHistory } : Engine).run ⟨""⟩
      (.check (.issue .user 1) (.ofString "") "Node.Console")).1 = .ok (.flag true) :=
  ⟨Reachable.empty.after rootHistory, rfl, Path.root_mem_levels_iff.mpr (Or.inr rfl), by decide +kernel,
    by decide +kernel⟩

end Engine

end ResourceAccess
