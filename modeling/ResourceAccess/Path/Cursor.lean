import ResourceAccess.Path.Basic

/-!
# Levels one at a time

A cursor hands out the levels of a path from the path upwards. It keeps the text to look at next and the level that it
handed out last. The text above the root is empty and stands for the root itself, so the cursor passes over a level that
it has just handed out.

* `Path.Cursor.advance_none`, `Path.Cursor.advance_text`: what a cursor hands out next
-/

namespace ResourceAccess.Path

/-- Where the cursor stands: the text to look at next, if there is one, and the level handed out last. -/
structure Cursor where
  next : Option (List Char)
  last : Option Path
deriving DecidableEq

namespace Cursor

def start (p : Path) : Cursor := ⟨some p.chars, none⟩

def left (c : Cursor) : Nat := c.next.elim 0 fun text => text.length + 1

theorem left_above_lt (text : List Char) (last : Option Path) :
    left ⟨beforeLastSlash? text, last⟩ < left ⟨some text, last⟩ := by
  cases h : beforeLastSlash? text with
  | none => exact Nat.succ_pos _
  | some above => exact Nat.succ_lt_succ (length_beforeLastSlash_lt h)

/-- The next level, and the cursor after it. -/
def advance : Cursor → Option (Path × Cursor)
  | ⟨none, _⟩ => none
  | ⟨some text, last⟩ =>
    let level := if text = [] then root else ⟨text⟩
    if last = some level then advance ⟨beforeLastSlash? text, last⟩
    else some (level, ⟨beforeLastSlash? text, some level⟩)
termination_by c => c.left
decreasing_by exact left_above_lt text last

theorem advance_none (last : Option Path) : advance ⟨none, last⟩ = none := by
  rw [advance]

theorem advance_text (text : List Char) (last : Option Path) :
    advance ⟨some text, last⟩ =
      let level := if text = [] then root else ⟨text⟩
      if last = some level then advance ⟨beforeLastSlash? text, last⟩
      else some (level, ⟨beforeLastSlash? text, some level⟩) := by
  rw [advance]

end Cursor

end ResourceAccess.Path
