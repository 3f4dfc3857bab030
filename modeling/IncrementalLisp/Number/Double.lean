import IncrementalLisp.Number.Binary

/-! Arithmetic of doubles. The result of an operation on finite doubles is the exact result
rounded to the nearest double; only the square root and the power are those of the processor.
An operand that is a NaN is the result, the first of two such operands. An operation whose
operands have no result gives the NaN with the sign bit set.
-/

namespace IncrementalLisp.Number.Double

/-- The result of an operation that has none. -/
def undefined : Double :=
  notANumber true

/-- The double with the other sign. -/
def negated (x : Double)
    : Double :=
  .ofNat (signBit (!isNegative x) + x.bits.toNat % twoTo 63)

/-- The double without its sign. -/
def abs (x : Double)
    : Double :=
  .ofNat (x.bits.toNat % twoTo 63)

/-- Whether a double is zero, of either sign. -/
def isZero (x : Double)
    : Bool :=
  x.bits.toNat % twoTo 63 == 0

/-- A double as an integer whose order is the order of the doubles that are not NaNs. -/
def rank (x : Double)
    : Int :=
  let size : Int := x.bits.toNat % twoTo 63
  if isNegative x then -size else size

/-- The order of two doubles, unless one is a NaN. -/
def order? (x y : Double)
    : Option Ordering :=
  if isNaN x || isNaN y then none else some (compare x.rank y.rank)

/-- Whether a double is greater than another or equal to it. -/
def atLeast (x y : Double)
    : Bool :=
  (x.order? y).any (·.isGE)

/-- Whether a double is less than another or equal to it. -/
def atMost (x y : Double)
    : Bool :=
  (x.order? y).any (·.isLE)

/-- The double nearest to magnitude * 2 ^ exponent, of the given sign. -/
def scaled (negative : Bool) (magnitude : Nat) (exponent : Int)
    : Double :=
  let (up, down) := powers 2 exponent
  nearest negative (magnitude * up) down

/-- A finite double as a multiple of 2 ^ exponent, for exponents not above its own. -/
def units (x : Double) (exponent : Int)
    : Int :=
  let b := Binary.ofDouble x
  let size : Int := b.significand * twoTo (b.exponent - exponent).toNat
  if isNegative x then -size else size

/-- The sum of two finite doubles. A sum of zero is negative only if both operands are. -/
def sumOfFinite (x y : Double)
    : Double :=
  let exponent := min (Binary.ofDouble x).exponent (Binary.ofDouble y).exponent
  let total := x.units exponent + y.units exponent
  if total == 0 then zero (isNegative x && isNegative y)
  else scaled (decide (total < 0)) total.natAbs exponent

/-- The result of an operation on two operands none of which is a NaN, and otherwise the first
operand that is one.
-/
def unlessNaN (x y result : Double)
    : Double :=
  if isNaN x then x else if isNaN y then y else result

/-- The sum of two doubles none of which is a NaN. -/
def sum (x y : Double)
    : Double :=
  if isFinite x then if isFinite y then sumOfFinite x y else y
  else if isFinite y || isNegative x == isNegative y then x
  else undefined

instance : Add Double where
  add x y := unlessNaN x y (sum x y)

instance : Sub Double where
  sub x y := unlessNaN x y (sum x y.negated)

/-- The product of two doubles none of which is a NaN. -/
def product (x y : Double)
    : Double :=
  let negative := isNegative x != isNegative y
  if isFinite x && isFinite y then
    let a := Binary.ofDouble x
    let b := Binary.ofDouble y
    scaled negative (a.significand * b.significand) (a.exponent + b.exponent)
  else if x.isZero || y.isZero then undefined
  else infinity negative

instance : Mul Double where
  mul x y := unlessNaN x y (product x y)

/-- The quotient of two finite doubles. -/
def quotientOfFinite (negative : Bool) (a b : Binary)
    : Double :=
  if b.significand == 0 then if a.significand == 0 then undefined else infinity negative
  else
    let (up, down) := powers 2 (a.exponent - b.exponent)
    nearest negative (a.significand * up) (b.significand * down)

/-- The quotient of two doubles none of which is a NaN. -/
def quotient (x y : Double)
    : Double :=
  let negative := isNegative x != isNegative y
  if isFinite x then
    if isFinite y then quotientOfFinite negative (Binary.ofDouble x) (Binary.ofDouble y)
    else zero negative
  else if isFinite y then infinity negative
  else undefined

instance : Div Double where
  div x y := unlessNaN x y (quotient x y)

/-- The whole double next to a double on one side of it: of the two whole neighbours of its
magnitude the larger one, if so asked for the double's sign. Doubles that are whole or not
finite stay as they are.
-/
def toWhole (grows : Bool → Bool) (x : Double)
    : Double :=
  let b := Binary.ofDouble x
  if !isFinite x || b.isWhole then x
  else
    let negative := isNegative x
    nearest negative (if grows negative then b.floor + 1 else b.floor) 1

/-- The largest whole double that is not above a double. -/
def floor (x : Double)
    : Double :=
  x.toWhole id

/-- The smallest whole double that is not below a double. -/
def ceil (x : Double)
    : Double :=
  x.toWhole not

/-- The processor's number of the same bits. -/
def toFloat (x : Double)
    : Float :=
  .ofBits x.bits

/-- A result of the processor. -/
def ofFloat (x : Float)
    : Double :=
  if x.isNaN then undefined else ⟨x.toBits⟩

/-- The square root. -/
def sqrt (x : Double)
    : Double :=
  if isNaN x || x.isZero then x
  else if isNegative x then undefined
  else ofFloat x.toFloat.sqrt

/-- Whether a double is an odd integer. -/
def isOdd (x : Double)
    : Bool :=
  let b := Binary.ofDouble x
  isFinite x && b.isWhole && b.floor % 2 == 1

/-- The power of a NaN, or to a NaN: 1 if the exponent is zero or the base is 1. A NaN with a sign
loses it in an odd power.
-/
def powOfNaN (x y : Double)
    : Double :=
  if y.isZero || x == ofInt 1 then ofInt 1
  else if isNaN x && y.isOdd then x.abs
  else unlessNaN x y undefined

/-- The power of a base to an exponent. -/
def pow (x y : Double)
    : Double :=
  if isNaN x || isNaN y then powOfNaN x y else ofFloat (x.toFloat.pow y.toFloat)

end IncrementalLisp.Number.Double
