import ResourceAccess.Decimal.FloatText

/-!
# JSON values

A whole number that fits 64 bits, with or without a sign, is kept as an integer; every other number is a decimal of as
many digits as fit 64 bits, and stands for a double. An object that was read has its fields in ascending order of their
names, each name once; one that is to be written has them in the order in which its record declares them.
-/

namespace ResourceAccess

inductive Number where
  | integer (value : Int)
  | decimal (negative : Bool) (coefficient : Nat) (exponent : Int)
deriving DecidableEq

namespace Number

/-- Whether an integer fits 64 bits, signed or unsigned. -/
def fits (value : Int) : Bool := -(Int.pow 2 63) ≤ value && value < Int.pow 2 64

/-- Reads on after the digits of a number as long as 64 bits hold it, and tells how many digits were left out. -/
def takeDigits (read : Nat) : List Char → Nat × Nat
  | [] => (read, 0)
  | c :: rest =>
    let next := Nat.ofDigitChars 10 [c] read
    if next < Nat.pow 2 64 then takeDigits next rest else (read, rest.length + 1)

/-- The decimal of its digits; those before the point that were left out count as powers of ten. -/
def ofDigits (negative : Bool) (whole places : List Char) (exponent : Int) : Number :=
  let (front, unread) := takeDigits 0 whole
  let (coefficient, unreadPlaces) := takeDigits front places
  .decimal negative coefficient (exponent + unread - (places.length - unreadPlaces : Nat))

def powerOfTen (n : Nat) : Float := Float.ofScientific 1 false n

/-- The double of a decimal, scaled by one power of ten; of tiny numbers nothing is left. -/
def scaled (coefficient : Nat) (exponent : Int) : Float :=
  let f := Float.ofNat coefficient
  if coefficient = 0 || exponent < -700 then 0
  else if 308 < exponent then f * powerOfTen 308 * powerOfTen 308
  else if 0 ≤ exponent then f * powerOfTen exponent.toNat
  else if -308 ≤ exponent then f / powerOfTen (-exponent).toNat
  else f / powerOfTen 308 / powerOfTen (-exponent - 308).toNat

def toFloat : Number → Float
  | .integer value => Float.ofInt value
  | .decimal negative coefficient exponent =>
    let f := scaled coefficient exponent
    if negative then -f else f

/-- The number of an integer text; one that does not fit stands for a double, and so does the negative zero. -/
def ofInteger (negative : Bool) (digits : List Char) : Number :=
  let size : Int := Nat.ofDigitChars 10 digits 0
  let value := if negative then -size else size
  if (negative && size == 0) || !fits value then ofDigits negative digits [] 0 else .integer value

def text : Number → String
  | .integer value => toString value
  | n => FloatText.scientific n.toFloat

end Number

inductive Json where
  | null
  | bool (b : Bool)
  | number (n : Number)
  | string (s : String)
  | array (items : List Json)
  | object (fields : List (String × Json))

namespace Json

def ofNat (n : Nat) : Json := .number (.integer n)

/-- The fields with one put in at its place, replacing one of the same name. -/
def insertField (name : String) (value : Json) : List (String × Json) → List (String × Json)
  | [] => [(name, value)]
  | (n, v) :: rest =>
    if name = n then (name, value) :: rest
    else if name < n then (name, value) :: (n, v) :: rest
    else (n, v) :: insertField name value rest

/-- The object of the fields that were read; of two with one name the later stands. -/
def ofFields (fields : List (String × Json)) : Json :=
  .object (fields.foldl (fun sorted field => insertField field.1 field.2 sorted) [])

def ofOption {α : Type} (encode : α → Json) : Option α → Json
  | none => .null
  | some a => encode a

def field? (name : String) : Json → Option Json
  | .object fields => fields.lookup name
  | _ => none

end Json

end ResourceAccess
