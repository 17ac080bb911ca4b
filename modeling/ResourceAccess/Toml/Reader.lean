import ResourceAccess.Toml.Document
import ResourceAccess.Toml.Scalar
import ResourceAccess.Toml.Text

/-!
# Reading TOML

`Toml.parse` reads a document line by line into statements and makes the table that they define.
-/

namespace ResourceAccess.Toml

open ResourceAccess.Text (Read isPlain)

/-- How deep arrays and inline tables may nest. -/
def nestingLimit : Nat := 79

/-- The rest from the end of a comment's line on. -/
def skipCommentText (cs : List Char) : List Char := cs.dropWhile isPlain

/-- Skips blanks, comments and line ends; each line spends fuel. -/
def skipLines : Nat → List Char → List Char
  | 0, cs => cs
  | fuel + 1, cs =>
    match skipBlanks cs with
    | '#' :: rest => skipLines fuel (skipCommentText rest)
    | cs =>
      match lineEnd? cs with
      | some rest => skipLines fuel rest
      | none => cs

/-- The rest of a line may hold a comment and nothing else. -/
def finishLine (cs : List Char) : Option (List Char) :=
  let rest :=
    match skipBlanks cs with
    | '#' :: rest => skipCommentText rest
    | rest => rest
  if rest.isEmpty then some [] else lineEnd? rest

mutual

/-- Reads one value; each call spends fuel, and `depth` brackets may still be opened. -/
def readValue (fuel depth : Nat) (cs : List Char) : Read Setting :=
  match fuel with
  | 0 => none
  | fuel + 1 =>
    match cs with
    | '"' :: _ => (readText cs).map fun (s, rest) => (.text (String.ofList s), rest)
    | '\'' :: _ => (readText cs).map fun (s, rest) => (.text (String.ofList s), rest)
    | '[' :: rest =>
      match depth with
      | 0 => none
      | depth + 1 => (readItems fuel depth rest).map fun (items, rest) => (.sequence items, rest)
    | '\x7b' :: rest =>
      match depth with
      | 0 => none
      | depth + 1 =>
        match skipBlanks rest with
        | '\x7d' :: rest => some (.table [], rest)
        | _ =>
          match readPairs fuel depth rest with
          | none => none
          | some (pairs, rest) => (inlineTable? pairs).map (·, rest)
    | _ => readScalar cs

def readItems (fuel depth : Nat) (cs : List Char) : Read (List Setting) :=
  match fuel with
  | 0 => none
  | fuel + 1 =>
    match skipLines (cs.length + 1) cs with
    | ']' :: rest => some ([], rest)
    | cs =>
      match readValue fuel depth cs with
      | none => none
      | some (item, rest) =>
        match skipLines (rest.length + 1) rest with
        | ']' :: rest => some ([item], rest)
        | ',' :: rest => (readItems fuel depth rest).map fun (items, rest) => (item :: items, rest)
        | _ => none

def readPairs (fuel depth : Nat) (cs : List Char) : Read (List (List String × Setting)) :=
  match fuel with
  | 0 => none
  | fuel + 1 =>
    match readPair fuel depth (skipBlanks cs) with
    | none => none
    | some (pair, rest) =>
      match skipBlanks rest with
      | '\x7d' :: rest => some ([pair], rest)
      | ',' :: rest => (readPairs fuel depth rest).map fun (pairs, rest) => (pair :: pairs, rest)
      | _ => none

def readPair (fuel depth : Nat) (cs : List Char) : Read (List String × Setting) :=
  match fuel with
  | 0 => none
  | fuel + 1 =>
    match readKeys cs with
    | none => none
    | some (keys, rest) =>
      match skipBlanks rest with
      | '=' :: rest => (readValue fuel depth (skipBlanks rest)).map fun (s, rest) => ((keys, s), rest)
      | _ => none

end

/-- Reads the keys of a header and its closing brackets. -/
def readHeader (closing cs : List Char) : Read (List String) :=
  match readKeys (skipBlanks cs) with
  | none => none
  | some (keys, rest) => (closing.isPrefixOf? (skipBlanks rest)).map (keys, ·)

def readStatement (cs : List Char) : Read Statement :=
  match cs with
  | '[' :: '[' :: rest => (readHeader [']', ']'] rest).map fun (keys, rest) => (.arrayHeader keys, rest)
  | '[' :: rest => (readHeader [']'] rest).map fun (keys, rest) => (.header keys, rest)
  | _ =>
    (readPair (3 * cs.length + 3) nestingLimit cs).map fun ((keys, s), rest) => (.pair keys s, rest)

/-- Reads statements up to the end of the document; each one spends fuel. -/
def readStatements : Nat → List Char → Option (List Statement)
  | 0, _ => none
  | fuel + 1, cs =>
    match skipLines (cs.length + 1) cs with
    | [] => some []
    | cs =>
      match readStatement cs with
      | none => none
      | some (statement, rest) =>
        match finishLine rest with
        | none => none
        | some rest => (readStatements fuel rest).map (statement :: ·)

/-- A byte order mark in front is passed over. -/
def dropMark : List Char → List Char
  | '\ufeff' :: rest => rest
  | cs => cs

/-- The table that a document defines, if it is well formed. -/
def parse (s : String) : Option Setting :=
  let cs := dropMark s.toList
  match readStatements (cs.length + 1) cs with
  | none => none
  | some statements => document? statements

end ResourceAccess.Toml
