import ResourceAccess.Decimal.Nearest
import ResourceAccess.Setting
import ResourceAccess.Sorted
import ResourceAccess.Text.Blank
import ResourceAccess.Text.Reader

/-!
# Settings from the environment

A variable whose name starts with `RBACD_`, in any case, sets the key that the rest of the name spells in lower case,
two underscores standing between the keys of a path. Its value is a truth value, a number, a quoted text, a quoted
character, an array, a table or, failing these, plain text. Names that are equal up to case set the same key, and which
of them counts depends on the process: what stands here for two such names is not promised.
-/

namespace ResourceAccess.Environment

open Text (Read push isPlain letterEscape? codePoint? trimBlank)

/-! ## Names -/

/-- What the names of all variables start with. -/
def stem : List Char := ['r', 'b', 'a', 'c', 'd', '_']

/-- Cuts at dots and at two underscores. -/
def cutKeys : List Char → List (List Char)
  | [] => [[]]
  | '_' :: '_' :: rest => [] :: cutKeys rest
  | '.' :: rest => [] :: cutKeys rest
  | c :: rest =>
    match cutKeys rest with
    | [] => [[c]]
    | key :: keys => (c :: key) :: keys

/-- The path of keys that a variable sets, if it is one of ours and no key is empty. -/
def keysOf? (name : String) : Option (List String) :=
  let lowered := (trimBlank name.toList).map Char.toLower
  match stem.isPrefixOf? lowered with
  | none => none
  | some rest =>
    let keys := cutKeys (trimBlank rest)
    if keys.any (·.isEmpty) then none else some (keys.map String.ofList)

/-! ## Values -/

def isBlank (c : Char) : Bool :=
  c == ' ' || c == '\t' || c == '\n' || c == '\r' || c == '\x0c'

def skipBlanks (cs : List Char) : List Char := cs.dropWhile isBlank

def isSeparator (c : Char) : Bool := c == ',' || c == '\x7b' || c == '\x7d' || c == '[' || c == ']'

/-- The unsigned number of digits, which a plus sign may precede. -/
def unsigned? (cs : List Char) : Option Setting :=
  let digits := match cs with
    | '+' :: rest => rest
    | cs => cs
  if digits.isEmpty || digits.any (!·.isDigit) then none
  else
    let n := Nat.ofDigitChars 10 digits 0
    if n < Nat.pow 2 64 then some (.unsigned n) else none

def negative? (cs : List Char) : Option Setting :=
  match cs with
  | '-' :: digits =>
    if digits.isEmpty || digits.any (!·.isDigit) then none
    else
      let n := Nat.ofDigitChars 10 digits 0
      if n ≤ Nat.pow 2 63 then some (.signed (-n)) else none
  | _ => none

/-- The power of ten after its mark; the empty text stands for none. -/
def power? : List Char → Option Int
  | [] => some 0
  | _ :: rest =>
    let (negative, digits) := match rest with
      | '-' :: digits => (true, digits)
      | '+' :: digits => (false, digits)
      | digits => (false, digits)
    if digits.isEmpty || digits.any (!·.isDigit) then none
    else
      let n : Int := Nat.ofDigitChars 10 digits 0
      some (if negative then -n else n)

/-- A decimal with a point, digits on one side of it at least. -/
def real? (cs : List Char) : Option Setting := do
  let (negative, size) := match cs with
    | '-' :: rest => (true, rest)
    | '+' :: rest => (false, rest)
    | cs => (false, cs)
  let (mantissa, power) := size.span fun c => c != 'e' && c != 'E'
  let (whole, fraction) := mantissa.span (· != '.')
  let places := fraction.drop 1
  let digits := whole ++ places
  if fraction.isEmpty || digits.isEmpty || digits.any (!·.isDigit) then none
  let exponent ← power? power
  return .real (Decimal.toFloat negative ⟨Nat.ofDigitChars 10 digits 0, exponent - places.length⟩)

def plain (cs : List Char) : Setting :=
  let cs := trimBlank cs
  ((real? cs) <|> (unsigned? cs) <|> (negative? cs)).getD (.text (String.ofList cs))

/-- Takes the quoted part after an opening quote, escapes and all. -/
def readQuoted : List Char → Read (List Char)
  | [] => none
  | '"' :: rest => some ([], rest)
  | '\\' :: c :: rest => push (some '\\') (push (some c) (readQuoted rest))
  | c :: rest => push (some c) (readQuoted rest)

/-- The characters in front that fill no more than so many bytes. -/
def takeBytes : Nat → List Char → List Char
  | _, [] => []
  | n, c :: rest => if c.utf8Size ≤ n then c :: takeBytes (n - c.utf8Size) rest else []

/-- The text that a quoted part stands for from its first escape on. -/
def unescape? : List Char → Option (List Char)
  | [] => some []
  | '\\' :: 'u' :: a :: b :: c :: d :: rest => do return (← codePoint? [a, b, c, d]) :: (← unescape? rest)
  | '\\' :: 'U' :: a :: b :: c :: d :: e :: f :: g :: h :: rest => do
    return (← codePoint? [a, b, c, d, e, f, g, h]) :: (← unescape? rest)
  | '\\' :: c :: rest => do return (← letterEscape? c) :: (← unescape? rest)
  | ['\\'] => none
  | c :: rest => if isPlain c then (unescape? rest).map (c :: ·) else none

/-- The text that a quoted part stands for. Of what stands before the first escape as many bytes are taken as it has
characters, so that text beyond ASCII is shortened there. -/
def quotedText? (quoted : List Char) : Option (List Char) :=
  let (front, escaped) := quoted.span (· != '\\')
  if front.any (!isPlain ·) then none
  else if escaped.isEmpty then some front
  else (unescape? escaped).map (takeBytes front.length front ++ ·)

def readText (cs : List Char) : Read String :=
  match readQuoted cs with
  | none => none
  | some (quoted, rest) => (quotedText? quoted).map fun text => (String.ofList text, rest)

def isKeyChar (c : Char) : Bool := c.isAlphanum || c == '_' || c == '-'

def readKey (cs : List Char) : Read String :=
  match cs with
  | '"' :: rest => readText rest
  | _ =>
    match cs.span isKeyChar with
    | ([], _) => none
    | (key, rest) => some (String.ofList key, rest)

def afterWord? (word cs : List Char) : Option (List Char) := word.isPrefixOf? cs

mutual

/-- Reads one value with the blanks around it; each call spends fuel. -/
def readValue (fuel : Nat) (cs : List Char) : Read Setting :=
  match fuel with
  | 0 => none
  | fuel + 1 => (readBare fuel (skipBlanks cs)).map fun (value, rest) => (value, skipBlanks rest)

def readBare (fuel : Nat) (cs : List Char) : Read Setting :=
  match fuel with
  | 0 => none
  | fuel + 1 =>
    match afterWord? ['t', 'r', 'u', 'e'] cs, afterWord? ['f', 'a', 'l', 's', 'e'] cs with
    | some rest, _ => some (.flag true, rest)
    | none, some rest => some (.flag false, rest)
    | none, none =>
      match cs with
      | '\x7b' :: rest => (readPairs fuel rest).map fun (pairs, rest) => (.table pairs, rest)
      | '[' :: rest => (readItems fuel rest).map fun (items, rest) => (.sequence items, rest)
      | '"' :: rest => (readText rest).map fun (text, rest) => (.text text, rest)
      | '\'' :: c :: '\'' :: rest => some (.text (String.singleton c), rest)
      | '\'' :: _ => none
      | _ =>
        let (value, rest) := cs.span (!isSeparator ·)
        some (plain value, rest)

def readItems (fuel : Nat) (cs : List Char) : Read (List Setting) :=
  match fuel with
  | 0 => none
  | fuel + 1 =>
    match cs with
    | ']' :: rest => some ([], rest)
    | _ =>
      match readValue fuel cs with
      | some (item, ',' :: rest) => (readItems fuel rest).map fun (items, rest) => (item :: items, rest)
      | some (item, ']' :: rest) => some ([item], rest)
      | _ => none

/-- Reads pairs up to the closing brace; a comma may stand before it. Of two pairs with one key the later stands. -/
def readPairs (fuel : Nat) (cs : List Char) : Read (List (String × Setting)) :=
  match fuel with
  | 0 => none
  | fuel + 1 =>
    match cs with
    | '\x7d' :: rest => some ([], rest)
    | _ =>
      match readKey (skipBlanks cs) with
      | none => none
      | some (key, rest) =>
        match skipBlanks rest with
        | '=' :: rest =>
          let add (value : Setting) (pairs : List (String × Setting)) : List (String × Setting) :=
            if (pairs.lookup key).isSome then pairs else (key, value) :: pairs
          match readValue fuel rest with
          | some (value, ',' :: rest) => (readPairs fuel rest).map fun (pairs, rest) => (add value pairs, rest)
          | some (value, '\x7d' :: rest) => some ([(key, value)], rest)
          | _ => none
        | _ => none

end

/-- What a variable's text stands for; a text that is not all one value stands for itself. -/
def valueOf (s : String) : Setting :=
  let cs := s.toList
  match readValue (3 * cs.length + 3) cs with
  | some (value, []) => value
  | _ => .text s

/-! ## The layer -/

abbrev Variables := List (String × String)

/-- The table that the variables set, a later one above an earlier; they are taken in ascending order of their names,
which matters where one name leads through the end of another. -/
def setting (environment : Variables) : Setting :=
  (sortedBy (·.1) environment).foldl
    (fun settings entry =>
      match keysOf? entry.1 with
      | none => settings
      | some keys => settings.merge (Setting.nested keys (valueOf entry.2)))
    (.table [])

end ResourceAccess.Environment
