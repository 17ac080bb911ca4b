/-!
# The shortest decimal of a binary fraction

A positive binary fraction is rounded to by an interval of numbers: those nearer to it than to its neighbours, the two
ends included when its significand is even. `Binary.shortest` looks for the decimal with the fewest digits in that
interval, and among those for the nearest one. For each count of digits only the two neighbours of the fraction on that
decimal grid have to be tried.
-/

namespace ResourceAccess

/-- The number `coefficient * 10 ^ exponent`. -/
structure Decimal where
  coefficient : Nat
  exponent : Int
deriving DecidableEq

/-- The number `significand * 2 ^ exponent`; the fraction just below it is half a step closer when `atBoundary`. -/
structure Binary where
  significand : Nat
  exponent : Int
  atBoundary : Bool
deriving DecidableEq

/-- Which of two equally near decimals is taken. -/
inductive Ties where
  /-- The one whose last digit is even. -/
  | toEven
  /-- The greater one. -/
  | up
deriving DecidableEq

/-- A fraction and the ends of its interval, in units of `1 / unit` of a decimal grid's step. -/
structure Grid where
  value : Nat
  low : Nat
  high : Nat
  unit : Nat
  closed : Bool

namespace Grid

/-- Whether the grid point rounds to the fraction. -/
def admits (g : Grid) (point : Nat) : Bool :=
  if g.closed then g.low ≤ point * g.unit && point * g.unit ≤ g.high
  else g.low < point * g.unit && point * g.unit < g.high

/-- The nearer of the fraction's two neighbours that rounds to it. -/
def nearest? (ties : Ties) (g : Grid) : Option Nat :=
  let below := g.value / g.unit
  let above := below + 1
  match g.admits below, g.admits above with
  | false, false => none
  | true, false => some below
  | false, true => some above
  | true, true =>
    let gapBelow := g.value - below * g.unit
    let gapAbove := above * g.unit - g.value
    if gapBelow < gapAbove then some below
    else if gapAbove < gapBelow then some above
    else if ties = .toEven && below % 2 = 0 then some below
    else some above

end Grid

namespace Binary

/-- The fraction on the grid of step `10 ^ k`. -/
def onGrid (b : Binary) (k : Int) : Grid :=
  let up := Nat.pow 2 (b.exponent - 2).toNat * Nat.pow 10 (-k).toNat
  let unit := Nat.pow 2 (2 - b.exponent).toNat * Nat.pow 10 k.toNat
  let four := 4 * b.significand
  ⟨four * up, (four - if b.atBoundary then 1 else 2) * up, (four + 2) * up, unit, b.significand % 2 = 0⟩

/-- The exponent of the leading decimal digit, sought upwards from `k`. -/
def leadingExponent (b : Binary) : Nat → Int → Int
  | 0, k => k
  | fuel + 1, k =>
    let g := b.onGrid (k + 1)
    if g.unit ≤ g.value then leadingExponent b fuel (k + 1) else k

def stripZeros : Nat → Decimal → Decimal
  | 0, d => d
  | fuel + 1, d =>
    if d.coefficient ≠ 0 ∧ d.coefficient % 10 = 0 then
      stripZeros fuel ⟨d.coefficient / 10, d.exponent + 1⟩
    else d

/-- The shortest decimal that rounds to the fraction, tried with ever more digits; seventeen always suffice. -/
def shortest (ties : Ties) (b : Binary) : Decimal :=
  let leading := b.leadingExponent 700 (-330)
  let attempt (n : Nat) : Option Decimal :=
    let k := leading - n
    ((b.onGrid k).nearest? ties).map (⟨·, k⟩)
  let found := (List.range 18).findSome? attempt
  stripZeros 20 (found.getD ⟨0, 0⟩)

end Binary

end ResourceAccess
