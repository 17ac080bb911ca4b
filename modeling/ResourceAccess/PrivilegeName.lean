/-!
# Names of privileges

A privilege is named by what it acts on and the action, such as `Node.Console`: two or more segments joined by dots,
each an ASCII upper-case letter followed by ASCII letters and digits.
-/

namespace ResourceAccess.PrivilegeName

/-- Reads on after a segment's first letter; `dotted` tells whether a dot came before. A dot must be followed by the
first letter of another segment. -/
def continues (dotted : Bool) : List Char → Bool
  | [] => dotted
  | [c] => c.isAlphanum && dotted
  | c :: d :: rest =>
    if c = '.' then d.isUpper && continues true rest
    else c.isAlphanum && continues dotted (d :: rest)

def isValidChars : List Char → Bool
  | [] => false
  | c :: rest => c.isUpper && continues false rest

def isValid (name : String) : Bool := isValidChars name.toList

end ResourceAccess.PrivilegeName
