import IncrementalLisp.Number.Binary

/-! The shortest decimal that rounds back to a double. Grids of one to seventeen significant
digits are tried in turn; the first that has a point among the reals rounding to the double
wins, and of two such neighbours the nearer one, on a tie the larger.
-/

namespace IncrementalLisp.Number

/-- The decimal digits * 10 ^ exponent. -/
structure Decimal where
  digits : Nat
  exponent : Int
deriving DecidableEq, Repr

/-- A magnitude and the ends of the reals rounding to it, as multiples of one small unit. -/
structure Neighbourhood where
  low : Nat
  value : Nat
  high : Nat
  closed : Bool
deriving DecidableEq, Repr

/-- The floor of the decimal logarithm of a positive magnitude. -/
def Binary.decimalExponent (b : Binary)
    : Int :=
  let guess := ((b.significand.log2 + b.exponent) * 30103).fdiv 100000
  let (tenUp, tenDown) := powers 10 (guess + 1)
  let (twoUp, twoDown) := powers 2 b.exponent
  if tenUp * twoDown ≤ b.significand * twoUp * tenDown then guess + 1 else guess

/-- The neighbourhood of a magnitude in units of a quarter of its last place. Below a power of
two the gap is half as wide.
-/
def Binary.neighbourhood (b : Binary)
    : Neighbourhood :=
  let value := 4 * b.significand
  let below := if b.significand == twoTo 52 && b.exponent > -1074 then 1 else 2
  ⟨value - below, value, value + 2, b.significand % 2 == 0⟩

/-- The point of a decimal grid that stands for a magnitude, if a neighbour of the magnitude on
the grid lies in its neighbourhood.
-/
def Binary.onGrid (b : Binary) (grid : Int)
    : Option Decimal :=
  let around := b.neighbourhood
  let (tenUp, tenDown) := powers 10 grid
  let (twoUp, twoDown) := powers 2 (b.exponent - 2)
  let scale := twoUp * tenDown
  let unit := tenUp * twoDown
  let value := around.value * scale
  let below := value / unit
  let lowGap := value - below * unit
  let highGap := (below + 1) * unit - value
  let lowReach := value - around.low * scale
  let highReach := around.high * scale - value
  let lowHit := if around.closed then lowGap ≤ lowReach else lowGap < lowReach
  let highHit := if around.closed then highGap ≤ highReach else highGap < highReach
  if lowHit ∧ (lowGap < highGap ∨ ¬highHit) then some ⟨below, grid⟩
  else if highHit then some ⟨below + 1, grid⟩
  else none

/-- The shortest decimal of a positive magnitude. -/
def Binary.shortest (b : Binary)
    : Decimal :=
  let top := b.decimalExponent
  let grids := (List.range 17).map fun n => top - Int.ofNat n
  (grids.findSome? b.onGrid).getD ⟨b.significand, b.exponent⟩

/-- A decimal whose last digit is not zero, for decimals of at most one trailing zero. -/
def Decimal.trimmed (d : Decimal)
    : Decimal :=
  if d.digits % 10 == 0 then ⟨d.digits / 10, d.exponent + 1⟩ else d

/-- A decimal in positional notation, without an exponent. -/
def Decimal.positional (d : Decimal)
    : String :=
  match d.exponent with
  | .ofNat up => toString (d.digits * tenTo up)
  | .negSucc down =>
      let whole := d.digits / tenTo (down + 1)
      let places := (toString (d.digits % tenTo (down + 1))).toList
      toString whole ++ "." ++
        String.ofList (List.replicate (down + 1 - places.length) '0' ++ places)

end IncrementalLisp.Number
