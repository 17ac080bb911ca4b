import ResourceAccess.Text.Reader

/-!
# Texts and keys of a TOML document

A basic text stands between double quotes and has escapes, a literal text between single quotes and has none; with
three quotes on each side either may run over several lines. A key is a bare word or a one-line text, and dots join
keys to a path of at most `pathLimit` keys.
-/

namespace ResourceAccess.Toml

open ResourceAccess.Text (Read push pushAll isPlain letterEscape? codePoint?)

def isBlank (c : Char) : Bool := c == ' ' || c == '\t'

def skipBlanks (cs : List Char) : List Char := cs.dropWhile isBlank

/-- The rest after a line end, if one is in front. -/
def lineEnd? : List Char → Option (List Char)
  | '\n' :: rest => some rest
  | '\r' :: '\n' :: rest => some rest
  | _ => none

/-! ## Texts on one line -/

def readBasic : List Char → Read (List Char)
  | [] => none
  | '"' :: rest => some ([], rest)
  | '\\' :: 'u' :: a :: b :: c :: d :: rest => push (codePoint? [a, b, c, d]) (readBasic rest)
  | '\\' :: 'U' :: a :: b :: c :: d :: e :: f :: g :: h :: rest =>
    push (codePoint? [a, b, c, d, e, f, g, h]) (readBasic rest)
  | '\\' :: c :: rest => push (letterEscape? c) (readBasic rest)
  | c :: rest => if isPlain c then push (some c) (readBasic rest) else none

def readLiteral : List Char → Read (List Char)
  | [] => none
  | '\'' :: rest => some ([], rest)
  | c :: rest => if isPlain c then push (some c) (readLiteral rest) else none

/-! ## Texts over several lines

Three to five quotes in a row end the text; those before the last three belong to it. Quotes are counted as they are
passed, and put back when they turn out to belong to the text. -/

/-- Ends the text when enough quotes have been passed, and reads on otherwise. -/
def closeOr (quote : Char) (passed : Nat) (here : List Char) (goOn : Unit → Read (List Char)) :
    Read (List Char) :=
  if 3 ≤ passed then
    if passed ≤ 5 then some (List.replicate (passed - 3) quote, here) else none
  else pushAll (List.replicate passed quote) (goOn ())

/-- Whether a line end follows, after blanks. -/
def endsLine (cs : List Char) : Bool := (lineEnd? (skipBlanks cs)).isSome

/-- Reads a basic text over several lines; `skipping` blanks and line ends after a backslash at the end of a line. -/
def readLines (skipping : Bool) (passed : Nat) : List Char → Read (List Char)
  | [] => closeOr '"' passed [] fun _ => none
  | '"' :: rest => readLines false (passed + 1) rest
  | '\r' :: '\n' :: rest =>
    if skipping then readLines true 0 rest
    else closeOr '"' passed ('\r' :: '\n' :: rest) fun _ => push (some '\n') (readLines false 0 rest)
  | '\\' :: 'u' :: a :: b :: c :: d :: rest =>
    closeOr '"' passed ('\\' :: 'u' :: a :: b :: c :: d :: rest) fun _ =>
      push (codePoint? [a, b, c, d]) (readLines false 0 rest)
  | '\\' :: 'U' :: a :: b :: c :: d :: e :: f :: g :: h :: rest =>
    closeOr '"' passed ('\\' :: 'U' :: a :: b :: c :: d :: e :: f :: g :: h :: rest) fun _ =>
      push (codePoint? [a, b, c, d, e, f, g, h]) (readLines false 0 rest)
  | '\\' :: c :: rest =>
    closeOr '"' passed ('\\' :: c :: rest) fun _ =>
      if endsLine (c :: rest) then readLines true 0 (c :: rest)
      else push (letterEscape? c) (readLines false 0 rest)
  | c :: rest =>
    if skipping && (isBlank c || c == '\n') then readLines true 0 rest
    else
      closeOr '"' passed (c :: rest) fun _ =>
        if isPlain c || c == '\n' then push (some c) (readLines false 0 rest) else none

def readLiteralLines (passed : Nat) : List Char → Read (List Char)
  | [] => closeOr '\'' passed [] fun _ => none
  | '\'' :: rest => readLiteralLines (passed + 1) rest
  | '\r' :: '\n' :: rest =>
    closeOr '\'' passed ('\r' :: '\n' :: rest) fun _ => push (some '\n') (readLiteralLines 0 rest)
  | c :: rest =>
    closeOr '\'' passed (c :: rest) fun _ =>
      if isPlain c || c == '\n' then push (some c) (readLiteralLines 0 rest) else none

/-- A line end right after the opening quotes does not belong to the text. -/
def dropLineEnd (cs : List Char) : List Char := (lineEnd? cs).getD cs

def readText : List Char → Read (List Char)
  | '"' :: '"' :: '"' :: rest => readLines false 0 (dropLineEnd rest)
  | '\'' :: '\'' :: '\'' :: rest => readLiteralLines 0 (dropLineEnd rest)
  | '"' :: rest => readBasic rest
  | '\'' :: rest => readLiteral rest
  | _ => none

/-! ## Keys -/

def isBareChar (c : Char) : Bool := c.isAlphanum || c == '_' || c == '-'

def readSimpleKey (cs : List Char) : Read String :=
  match cs with
  | '"' :: rest => (readBasic rest).map fun (key, rest) => (String.ofList key, rest)
  | '\'' :: rest => (readLiteral rest).map fun (key, rest) => (String.ofList key, rest)
  | _ =>
    match cs.span isBareChar with
    | ([], _) => none
    | (key, rest) => some (String.ofList key, rest)

/-- How many keys a path may have. -/
def pathLimit : Nat := 79

/-- Reads keys joined by dots, with blanks around the dots, and refuses a path of more than so many keys. -/
def readKeysUpTo : Nat → List Char → Read (List String)
  | 0, _ => none
  | limit + 1, cs =>
    match readSimpleKey cs with
    | none => none
    | some (key, rest) =>
      match skipBlanks rest with
      | '.' :: rest => (readKeysUpTo limit (skipBlanks rest)).map fun (keys, rest) => (key :: keys, rest)
      | rest => some ([key], rest)

def readKeys (cs : List Char) : Read (List String) := readKeysUpTo pathLimit cs

end ResourceAccess.Toml
