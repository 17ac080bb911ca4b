import ResourceAccess.Text.Hexadecimal

/-!
# Readers

A reader takes something from the front of a text and leaves the rest, or refuses the text.
-/

namespace ResourceAccess.Text

/-- What a reader makes of the front of a text, and the rest. -/
abbrev Read (α : Type) := Option (α × List Char)

def push (c : Option Char) (r : Read (List Char)) : Read (List Char) :=
  match c, r with
  | some c, some (cs, rest) => some (c :: cs, rest)
  | _, _ => none

def pushAll (cs : List Char) (r : Read (List Char)) : Read (List Char) :=
  r.map fun (text, rest) => (cs ++ text, rest)

/-- Whether a character may stand for itself in a text on one line: tabs may, other controls may not. -/
def isPlain (c : Char) : Bool := c == '\t' || (32 ≤ c.toNat && c.toNat ≠ 127)

/-- The character that a letter stands for after a backslash. -/
def letterEscape? (c : Char) : Option Char :=
  match c with
  | 'b' => some '\x08'
  | 't' => some '\t'
  | 'n' => some '\n'
  | 'f' => some '\x0c'
  | 'r' => some '\r'
  | '"' => some '"'
  | '\\' => some '\\'
  | _ => none

/-- The character whose code point these hexadecimal digits spell. -/
def codePoint? (digits : List Char) : Option Char := do charOf? (← hexNumber? digits)

end ResourceAccess.Text
