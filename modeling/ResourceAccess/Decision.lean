import ResourceAccess.Path.Basic

/-!
# Deciding access from rules

A rule allows or denies access at one path and, when it propagates, below it. `Decision.ofRules` walks from the queried
path to the root; the first level where some rule speaks decides. A denying rule speaks at its own level whether it
propagates or not, and overrides every allowing rule there. An allowing rule speaks at the queried path, and further
down only when it propagates.

* `Decision.ofRules_eq_noMatchingRule_iff`: no decision is reached exactly when no level decides
-/

namespace ResourceAccess

structure Rule where
  path : Path
  allowed : Bool
  propagates : Bool
deriving DecidableEq

/-- The outcome of a check, with the level that decided it. -/
inductive Decision where
  | allowed (level : Path)
  | denied (level : Path)
  | noMatchingRule
deriving DecidableEq

namespace Decision

def isAllowed : Decision → Bool
  | .allowed _ => true
  | _ => false

/-- What the rules at one level say about the queried path. -/
def atLevel? (rules : List Rule) (queried level : Path) : Option Decision :=
  let here := rules.filter (·.path == level)
  if here.any (!·.allowed) then some (.denied level)
  else if here.any (fun r => level == queried || r.propagates) then some (.allowed level)
  else none

def ofRules (rules : List Rule) (queried : Path) : Decision :=
  (queried.levels.findSome? (atLevel? rules queried)).getD .noMatchingRule

theorem atLevel_ne_noMatchingRule {rules : List Rule} {queried level : Path} :
    atLevel? rules queried level ≠ some .noMatchingRule := by
  dsimp only [atLevel?]
  split
  · simp
  · split <;> simp

theorem ofRules_eq_noMatchingRule_iff {rules : List Rule} {queried : Path} :
    ofRules rules queried = .noMatchingRule ↔
      ∀ level ∈ queried.levels, atLevel? rules queried level = none := by
  unfold ofRules
  cases h : queried.levels.findSome? (atLevel? rules queried) with
  | none => simpa using List.findSome?_eq_none_iff.mp h
  | some d =>
    obtain ⟨level, hmem, hd⟩ := List.exists_of_findSome?_eq_some h
    simp only [Option.getD_some]
    constructor
    · rintro rfl
      exact absurd hd atLevel_ne_noMatchingRule
    · intro hall
      simp [hall level hmem] at hd

end Decision

end ResourceAccess
