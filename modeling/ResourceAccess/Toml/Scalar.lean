import ResourceAccess.Decimal.Nearest
import ResourceAccess.Setting
import ResourceAccess.Text.Reader

/-!
# Numbers, dates and words of a TOML document

A value that is neither text, array nor table is a run of letters, digits and the marks `+ - _ . :`, and only a date
may be followed by a blank and a time. Whole numbers fit 64 bits with a sign, and a date is one of the calendar.
-/

namespace ResourceAccess.Toml

open ResourceAccess.Text (Read)

/-- Digits with single underscores between them, the underscores left out. -/
def digits? (isDigit : Char → Bool) : List Char → Option (List Char)
  | [] => none
  | [c] => if isDigit c then some [c] else none
  | c :: '_' :: rest => if isDigit c then (digits? isDigit rest).map (c :: ·) else none
  | c :: rest => if isDigit c then (digits? isDigit rest).map (c :: ·) else none

/-! ## Whole numbers -/

/-- The digits of a whole number in decimal, which starts with a zero only if it is zero. -/
def wholeDigits? (cs : List Char) : Option (List Char) :=
  match digits? Char.isDigit cs with
  | some ('0' :: _ :: _) => none
  | found => found

def signedSetting? (n : Int) : Option Setting :=
  if -(Int.pow 2 63) ≤ n && n < Int.pow 2 63 then some (.signed n) else none

def inBase? (base : Nat) (cs : List Char) : Option Setting := do
  let isDigit (c : Char) : Bool := (Text.hexValue? c).any (· < base)
  let digits ← digits? isDigit cs
  let value := digits.foldl (fun n c => base * n + (Text.hexValue? c).getD 0) 0
  signedSetting? value

def integer? (negative : Bool) (cs : List Char) : Option Setting := do
  let digits ← wholeDigits? cs
  let size : Int := Nat.ofDigitChars 10 digits 0
  signedSetting? (if negative then -size else size)

/-! ## Fractions -/

def signOf : List Char → Bool × List Char
  | '-' :: rest => (true, rest)
  | '+' :: rest => (false, rest)
  | cs => (false, cs)

/-- A decimal with a point, an exponent or both; a positive one is not without bound. -/
def real? (negative : Bool) (cs : List Char) : Option Setting := do
  let isMark (c : Char) : Bool := c == 'e' || c == 'E'
  let (mantissa, power) := cs.span (!isMark ·)
  let (wholePart, fractionPart) := mantissa.span (· != '.')
  if power.isEmpty && fractionPart.isEmpty then none
  let whole ← wholeDigits? wholePart
  let places ← match fractionPart with
    | [] => some []
    | _ :: rest => digits? Char.isDigit rest
  let exponent ← match power with
    | [] => some (0 : Int)
    | _ :: rest =>
      let (negativePower, rest) := signOf rest
      let size ← digits? Char.isDigit rest
      let n : Int := Nat.ofDigitChars 10 size 0
      some (if negativePower then -n else n)
  let value := Decimal.toFloat negative ⟨Nat.ofDigitChars 10 (whole ++ places) 0, exponent - places.length⟩
  if value.isInf && !negative then none else some (.real value)

/-! ## Dates and times -/

/-- The number of two digits, if that is what there is, and not above the limit. -/
def twoDigits? (low high : Nat) : List Char → Option Nat
  | [a, b] =>
    if a.isDigit && b.isDigit then
      let n := Nat.ofDigitChars 10 [a, b] 0
      if low ≤ n && n ≤ high then some n else none
    else none
  | _ => none

def isLeapYear (year : Nat) : Bool := year % 4 == 0 && (year % 100 != 0 || year % 400 == 0)

def daysIn (year month : Nat) : Nat :=
  if month = 2 then if isLeapYear year then 29 else 28
  else if month = 4 || month = 6 || month = 9 || month = 11 then 30
  else 31

def isDate : List Char → Bool
  | [y₁, y₂, y₃, y₄, '-', m₁, m₂, '-', d₁, d₂] =>
    let year := [y₁, y₂, y₃, y₄]
    year.all Char.isDigit &&
      ((twoDigits? 1 12 [m₁, m₂]).any fun month =>
        (twoDigits? 1 (daysIn (Nat.ofDigitChars 10 year 0) month) [d₁, d₂]).isSome)
  | _ => false

/-- A time of day, with the rest after the seconds and their fraction. -/
def time? : List Char → Option (List Char)
  | h₁ :: h₂ :: ':' :: m₁ :: m₂ :: ':' :: s₁ :: s₂ :: rest => do
    let _ ← twoDigits? 0 23 [h₁, h₂]
    let _ ← twoDigits? 0 59 [m₁, m₂]
    let _ ← twoDigits? 0 60 [s₁, s₂]
    match rest with
    | '.' :: fraction =>
      let (digits, rest) := fraction.span Char.isDigit
      if digits.isEmpty then none else some rest
    | rest => some rest
  | _ => none

def isOffset : List Char → Bool
  | ['Z'] => true
  | ['z'] => true
  | [sign, h₁, h₂, ':', m₁, m₂] =>
    (sign == '+' || sign == '-') && (twoDigits? 0 23 [h₁, h₂]).isSome && (twoDigits? 0 59 [m₁, m₂]).isSome
  | _ => false

def isTime (cs : List Char) : Bool := time? cs == some []

/-- A time that follows a date, with an offset or without. -/
def isTimeOfDate (cs : List Char) : Bool := (time? cs).any fun rest => rest.isEmpty || isOffset rest

def isDateTime (cs : List Char) : Bool :=
  isDate (cs.take 10) &&
    match cs.drop 10 with
    | mark :: rest => (mark == 'T' || mark == 't') && isTimeOfDate rest
    | [] => false

/-- Dates and times count as tables; their text stands in one under a key that no variable can name. -/
def dateSetting (cs : List Char) : Setting :=
  .table [("", .text (String.ofList cs))]

/-! ## All of them -/

/-- The setting of a run of characters. -/
def scalar? (cs : List Char) : Option Setting :=
  if cs = ['t', 'r', 'u', 'e'] then some (.flag true)
  else if cs = ['f', 'a', 'l', 's', 'e'] then some (.flag false)
  else if isDate cs || isTime cs || isDateTime cs then some (dateSetting cs)
  else
    match cs with
    | '0' :: 'x' :: rest => inBase? 16 rest
    | '0' :: 'o' :: rest => inBase? 8 rest
    | '0' :: 'b' :: rest => inBase? 2 rest
    | _ =>
      let (negative, size) := signOf cs
      if size = ['i', 'n', 'f'] then some (.real (if negative then -(1 / 0) else 1 / 0))
      else if size = ['n', 'a', 'n'] then some (.real (0 / 0))
      else (integer? negative size) <|> (real? negative size)

def isScalarChar (c : Char) : Bool :=
  c.isAlphanum || c == '+' || c == '-' || c == '_' || c == '.' || c == ':'

def readScalar (cs : List Char) : Read Setting :=
  let (run, rest) := cs.span isScalarChar
  match rest with
  | ' ' :: after =>
    let (second, rest') := after.span isScalarChar
    if isDate run && isTimeOfDate second then some (dateSetting (run ++ ' ' :: second), rest')
    else (scalar? run).map (·, rest)
  | _ => (scalar? run).map (·, rest)

end ResourceAccess.Toml
