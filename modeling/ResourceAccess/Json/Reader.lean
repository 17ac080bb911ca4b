import ResourceAccess.Json.Basic
import ResourceAccess.Text.Reader

/-!
# Reading JSON

`Json.scan` reads one value that fills the text, with blanks around its parts, and `Json.parse` sorts its fields then. A
text in quotes holds no control character and no half of a surrogate pair, a number has no leading zeros and is not too
large for a double, and brackets nest at most `nestingLimit` deep.
-/

namespace ResourceAccess.Json

open Text (Read push letterEscape? hexNumber? charOf?)

def isBlank (c : Char) : Bool := c == ' ' || c == '\n' || c == '\t' || c == '\r'

def skipBlanks (cs : List Char) : List Char := cs.dropWhile isBlank

/-! ## Texts in quotes -/

/-- The character of a surrogate pair. -/
def pairOf? (high low : Nat) : Option Char :=
  if 0xD800 ≤ high && high < 0xDC00 && 0xDC00 ≤ low && low < 0xE000 then
    charOf? (0x10000 + (high - 0xD800) * 0x400 + (low - 0xDC00))
  else none

/-- The character that stands for itself or another after a backslash. -/
def unescape? (c : Char) : Option Char := if c = '/' then some '/' else letterEscape? c

/-- Reads on after the opening quote. -/
def readText : List Char → Read (List Char)
  | [] => none
  | '"' :: rest => some ([], rest)
  | '\\' :: 'u' :: a :: b :: c :: d :: rest =>
    match hexNumber? [a, b, c, d] with
    | none => none
    | some n =>
      match charOf? n with
      | some ch => push (some ch) (readText rest)
      | none =>
        match rest with
        | '\\' :: 'u' :: e :: f :: g :: h :: rest =>
          push (do pairOf? n (← hexNumber? [e, f, g, h])) (readText rest)
        | _ => none
  | '\\' :: c :: rest => push (unescape? c) (readText rest)
  | c :: rest => if c.toNat < 32 then none else push (some c) (readText rest)

/-! ## Numbers -/

def digitsIn (cs : List Char) : List Char × List Char := cs.span Char.isDigit

def numberOf (digits : List Char) : Nat := Nat.ofDigitChars 10 digits 0

def readFraction (cs : List Char) : Read (Option (List Char)) :=
  match cs with
  | '.' :: rest =>
    match digitsIn rest with
    | ([], _) => none
    | (digits, rest) => some (some digits, rest)
  | _ => some (none, cs)

def readExponentDigits (negative : Bool) (cs : List Char) : Read (Option Int) :=
  match digitsIn cs with
  | ([], _) => none
  | (digits, rest) => some (some (if negative then -(numberOf digits) else numberOf digits), rest)

def readExponent (cs : List Char) : Read (Option Int) :=
  match cs with
  | c :: rest =>
    if c = 'e' || c = 'E' then
      match rest with
      | '-' :: rest => readExponentDigits true rest
      | '+' :: rest => readExponentDigits false rest
      | _ => readExponentDigits false rest
    else some (none, cs)
  | [] => some (none, cs)

/-- The number of its parts, if a double can hold it. -/
def numberOfParts? (negative : Bool) (whole : List Char) (fraction : Option (List Char))
    (exponent : Option Int) : Option Number :=
  let number :=
    if fraction.isNone && exponent.isNone then Number.ofInteger negative whole
    else Number.ofDigits negative whole (fraction.getD []) (exponent.getD 0)
  if number.toFloat.isInf then none else some number

def readSize (negative : Bool) (cs : List Char) : Read Number :=
  match digitsIn cs with
  | ([], _) => none
  | ('0' :: _ :: _, _) => none
  | (whole, rest) =>
    match readFraction rest with
    | none => none
    | some (fraction, rest) =>
      match readExponent rest with
      | none => none
      | some (exponent, rest) => (numberOfParts? negative whole fraction exponent).map (·, rest)

def readNumber (cs : List Char) : Read Number :=
  match cs with
  | '-' :: rest => readSize true rest
  | _ => readSize false cs

/-! ## Values -/

/-- How deep brackets may nest. -/
def nestingLimit : Nat := 127

/-- Reads the rest of a word that stands for a value. -/
def readWord (word : List Char) (value : Json) (cs : List Char) : Read Json :=
  (word.isPrefixOf? cs).map (value, ·)

mutual

/-- Reads one value; each call spends fuel, and `depth` brackets may still be opened. -/
def readValue (fuel depth : Nat) (cs : List Char) : Read Json :=
  match fuel with
  | 0 => none
  | fuel + 1 =>
    match skipBlanks cs with
    | 'n' :: rest => readWord ['u', 'l', 'l'] .null rest
    | 't' :: rest => readWord ['r', 'u', 'e'] (.bool true) rest
    | 'f' :: rest => readWord ['a', 'l', 's', 'e'] (.bool false) rest
    | '"' :: rest => (readText rest).map fun (s, rest) => (.string (String.ofList s), rest)
    | '[' :: rest =>
      match depth with
      | 0 => none
      | depth + 1 =>
        match skipBlanks rest with
        | ']' :: rest => some (.array [], rest)
        | _ => (readItems fuel depth rest).map fun (items, rest) => (.array items, rest)
    | '\x7b' :: rest =>
      match depth with
      | 0 => none
      | depth + 1 =>
        match skipBlanks rest with
        | '\x7d' :: rest => some (.object [], rest)
        | _ => (readFields fuel depth rest).map fun (fields, rest) => (.object fields, rest)
    | cs => (readNumber cs).map fun (n, rest) => (.number n, rest)

def readItems (fuel depth : Nat) (cs : List Char) : Read (List Json) :=
  match fuel with
  | 0 => none
  | fuel + 1 =>
    match readValue fuel depth cs with
    | none => none
    | some (item, rest) =>
      match skipBlanks rest with
      | ']' :: rest => some ([item], rest)
      | ',' :: rest => (readItems fuel depth rest).map fun (items, rest) => (item :: items, rest)
      | _ => none

def readFields (fuel depth : Nat) (cs : List Char) : Read (List (String × Json)) :=
  match fuel with
  | 0 => none
  | fuel + 1 =>
    match skipBlanks cs with
    | '"' :: rest =>
      match readText rest with
      | none => none
      | some (name, rest) =>
        match skipBlanks rest with
        | ':' :: rest =>
          match readValue fuel depth rest with
          | none => none
          | some (value, rest) =>
            let field := (String.ofList name, value)
            match skipBlanks rest with
            | '\x7d' :: rest => some ([field], rest)
            | ',' :: rest => (readFields fuel depth rest).map fun (fields, rest) => (field :: fields, rest)
            | _ => none
        | _ => none
    | _ => none

end

/-- The value that fills a text, with all fields as they stand there. -/
def scan (s : String) : Option Json :=
  let cs := s.toList
  match readValue (cs.length + 1) nestingLimit cs with
  | some (value, rest) => if (skipBlanks rest).isEmpty then some value else none
  | none => none

mutual

/-- The same value with its fields in order, each name once. -/
def sorted : Json → Json
  | .array items => .array (sortedItems items)
  | .object fields => .ofFields (sortedFields fields)
  | j => j

def sortedItems : List Json → List Json
  | [] => []
  | item :: rest => item.sorted :: sortedItems rest

def sortedFields : List (String × Json) → List (String × Json)
  | [] => []
  | (name, value) :: rest => (name, value.sorted) :: sortedFields rest

end

def parse (s : String) : Option Json := (scan s).map sorted

end ResourceAccess.Json
