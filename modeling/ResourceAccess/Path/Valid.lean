import ResourceAccess.Path.Basic

/-!
# Paths that a stored rule may have

`Path.fault?` names the first reason to refuse a path, in the order in which the reasons are looked for.

* `Path.fault_eq_none_iff`: what an accepted path looks like
-/

namespace ResourceAccess

/-- The C0 and C1 controls and the delete character. -/
def isControl (c : Char) : Bool :=
  c.val ≤ 0x1F || (0x7F ≤ c.val && c.val ≤ 0x9F)

namespace Path

/-- The longest stored path, in bytes of UTF-8. -/
def maxLength : Nat := 1024

inductive Fault where
  | empty
  | notRooted
  | tooLong
  | controlCharacter
deriving DecidableEq

def Fault.message : Fault → String
  | .empty => "path cannot be empty"
  | .notRooted => "path must start with '/'"
  | .tooLong => "path must be " ++ toString maxLength ++ " characters or less"
  | .controlCharacter => "path contains control characters"

def fault? (p : Path) : Option Fault :=
  if p.chars = [] then some .empty
  else if !p.isRooted then some .notRooted
  else if maxLength < p.byteLength then some .tooLong
  else if p.chars.any isControl then some .controlCharacter
  else none

theorem fault_eq_none_iff {p : Path} :
    p.fault? = none ↔
      p.isRooted = true ∧ p.byteLength ≤ maxLength ∧ ∀ c ∈ p.chars, isControl c = false := by
  unfold fault?
  split
  · rename_i h
    simp [isRooted, h]
  · split
    · rename_i h
      simp_all
    · split
      · rename_i h
        simp only [reduceCtorEq, false_iff, not_and]
        omega
      · split <;> simp_all

end Path

end ResourceAccess
