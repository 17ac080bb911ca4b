import ResourceAccess.Decimal.Shortest

/-!
# The double nearest to a decimal
-/

namespace ResourceAccess.Decimal

/-- How many digits stand before the point; negative where zeros follow it. -/
def leading (d : Decimal) : Int := (Nat.toDigits 10 d.coefficient).length + d.exponent

/-- The nearest double; a decimal with very many places is nothing or without bound. -/
def toFloat (negative : Bool) (d : Decimal) : Float :=
  let size : Float :=
    if d.coefficient = 0 || d.leading < -400 then 0
    else if 400 < d.leading then 1 / 0
    else if 0 ≤ d.exponent then Float.ofScientific d.coefficient false d.exponent.toNat
    else Float.ofScientific d.coefficient true (-d.exponent).toNat
  if negative then -size else size

end ResourceAccess.Decimal
