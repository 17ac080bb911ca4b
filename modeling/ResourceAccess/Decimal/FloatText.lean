import ResourceAccess.Decimal.Shortest

/-!
# Doubles as text

A double is written with the fewest digits that read back. `positional` never uses an exponent and breaks ties upwards;
`scientific` breaks them to even, and turns from a point in every number to a signed exponent for numbers far from one.
-/

namespace ResourceAccess

/-- The fraction that the bits of a finite double stand for, its sign left out. -/
def Binary.ofFiniteBits (bits : Nat) : Binary :=
  let field : Nat := bits % Nat.pow 2 52
  let exponent : Nat := bits / Nat.pow 2 52 % Nat.pow 2 11
  if exponent = 0 then ⟨field, -1074, false⟩
  else ⟨Nat.pow 2 52 + field, (exponent : Int) - 1075, field = 0 && exponent ≠ 1⟩

namespace FloatText

def isNegative (f : Float) : Bool := Nat.pow 2 63 ≤ f.toBits.toNat

def sign (f : Float) : String := if isNegative f then "-" else ""

/-- The digits of a double's size and the power of ten of the last one. -/
def decimal (ties : Ties) (f : Float) : Decimal :=
  let b := Binary.ofFiniteBits (f.toBits.toNat % Nat.pow 2 63)
  if b.significand = 0 then ⟨0, 0⟩ else b.shortest ties

def zeros (n : Nat) : List Char := List.replicate n '0'

/-- The digits with the point put in after the first `n` of them. -/
def pointAfter (n : Nat) (digits : List Char) : List Char :=
  digits.take n ++ '.' :: digits.drop n

def positional (f : Float) : String :=
  if f.isNaN then "NaN"
  else if f.isInf then sign f ++ "inf"
  else
    let d := decimal .up f
    let digits := Nat.toDigits 10 d.coefficient
    let body :=
      if 0 ≤ d.exponent then digits ++ zeros d.exponent.toNat
      else
        let places := (-d.exponent).toNat
        if places < digits.length then pointAfter (digits.length - places) digits
        else ['0', '.'] ++ zeros (places - digits.length) ++ digits
    sign f ++ String.ofList body

def exponentText (e : Int) : List Char :=
  'e' :: (if e < 0 then '-' else '+') :: Nat.toDigits 10 e.natAbs

def scientific (f : Float) : String :=
  if f.isNaN then "NaN"
  else if f.isInf then sign f ++ "inf"
  else
    let d := decimal .toEven f
    let digits := Nat.toDigits 10 d.coefficient
    let point := (digits.length : Int) + d.exponent
    let body :=
      if d.coefficient = 0 then ['0', '.', '0']
      else if 0 ≤ d.exponent && point ≤ 16 then digits ++ zeros d.exponent.toNat ++ ['.', '0']
      else if 0 < point && point ≤ 16 then pointAfter point.toNat digits
      else if -5 < point && point ≤ 0 then ['0', '.'] ++ zeros (-point).toNat ++ digits
      else if digits.length = 1 then digits ++ exponentText (point - 1)
      else pointAfter 1 digits ++ exponentText (point - 1)
    sign f ++ String.ofList body

end FloatText

end ResourceAccess
