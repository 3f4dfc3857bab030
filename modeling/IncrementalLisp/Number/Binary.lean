/-! Double precision numbers as exact binary fractions. A double is its 64 bits; a finite one is a
significand below 2 ^ 53 times a power of two. A positive rational is rounded to the nearest
double with ties to the even significand, and integers are converted both ways through these
two.
-/

namespace IncrementalLisp.Number

/-- The powers of two. -/
def twoTo (n : Nat)
    : Nat :=
  Nat.pow 2 n

/-- The powers of ten. -/
def tenTo (n : Nat)
    : Nat :=
  Nat.pow 10 n

/-- A power with an exponent of either sign, as numerator and denominator. -/
def powers (base : Nat) (exponent : Int)
    : Nat × Nat :=
  match exponent with
  | .ofNat up => (Nat.pow base up, 1)
  | .negSucc down => (1, Nat.pow base (down + 1))

/-- A double, given by its bits: the sign, eleven bits of exponent and 52 of fraction. -/
structure Double where
  bits : UInt64
deriving DecidableEq, Repr

/-- The double with the bits of a number below 2 ^ 64. -/
def Double.ofNat (bits : Nat)
    : Double :=
  ⟨.ofNat bits⟩

/-- The magnitude significand * 2 ^ exponent. -/
structure Binary where
  significand : Nat
  exponent : Int
deriving DecidableEq, Repr

/-- Whether the sign bit of a double is set. -/
def isNegative (x : Double)
    : Bool :=
  x.bits.toNat / twoTo 63 == 1

/-- Whether a double is neither infinite nor a NaN. -/
def isFinite (x : Double)
    : Bool :=
  x.bits.toNat / twoTo 52 % twoTo 11 != 2047

/-- Whether a double is a NaN. -/
def isNaN (x : Double)
    : Bool :=
  !isFinite x && x.bits.toNat % twoTo 52 != 0

/-- The magnitude of a finite double. -/
def Binary.ofDouble (x : Double)
    : Binary :=
  let fraction : Nat := x.bits.toNat % twoTo 52
  let biased : Nat := x.bits.toNat / twoTo 52 % twoTo 11
  if biased == 0 then ⟨fraction, -1074⟩ else ⟨twoTo 52 + fraction, (biased : Int) - 1075⟩

/-- The integer below the magnitude. -/
def Binary.floor (b : Binary)
    : Nat :=
  match b.exponent with
  | .ofNat up => b.significand * twoTo up
  | .negSucc down => b.significand / twoTo (down + 1)

/-- Whether the magnitude is an integer. -/
def Binary.isWhole (b : Binary)
    : Bool :=
  match b.exponent with
  | .ofNat _ => true
  | .negSucc down => b.significand % twoTo (down + 1) == 0

/-- The quotient rounded to the nearest integer, a half going to the even one. -/
def roundHalfEven (num den : Nat)
    : Nat :=
  let quotient := num / den
  let rest := num % den
  if 2 * rest < den then quotient
  else if 2 * rest > den then quotient + 1
  else quotient + quotient % 2

/-- The sign bit. -/
def signBit (negative : Bool)
    : Nat :=
  if negative then twoTo 63 else 0

/-- Zero of a sign. -/
def zero (negative : Bool)
    : Double :=
  .ofNat (signBit negative)

/-- Infinity of a sign. -/
def infinity (negative : Bool)
    : Double :=
  .ofNat (signBit negative + 2047 * twoTo 52)

/-- The NaN of a sign. -/
def notANumber (negative : Bool)
    : Double :=
  .ofNat (signBit negative + 2047 * twoTo 52 + twoTo 51)

/-- A double from its sign and a significand of at most 53 bits. -/
def assemble (negative : Bool) (significand : Nat) (exponent : Int)
    : Double :=
  if significand == twoTo 53 then assembleNormal (twoTo 52) (exponent + 1)
  else assembleNormal significand exponent
where
  assembleNormal (significand : Nat) (exponent : Int) : Double :=
    if exponent > 971 then infinity negative
    else if significand < twoTo 52 then .ofNat (signBit negative + significand)
    else
      .ofNat (signBit negative + (exponent + 1075).toNat * twoTo 52 + (significand - twoTo 52))

/-- Rounds (num / den) / 2 ^ exponent to an integer. -/
def scaledRound (num den : Nat) (exponent : Int)
    : Nat :=
  match exponent with
  | .ofNat up => roundHalfEven num (den * twoTo up)
  | .negSucc down => roundHalfEven (num * twoTo (down + 1)) den

/-- Whether (num / den) is at least 2 ^ exponent. -/
def atLeastPower (num den : Nat) (exponent : Int)
    : Bool :=
  match exponent with
  | .ofNat up => den * twoTo up ≤ num
  | .negSucc down => den ≤ num * twoTo (down + 1)

/-- The double nearest to num / den, of the given sign. The unit of the result's grid is chosen
so that the significand has 53 bits, or fewer at the lower end of the range.
-/
def nearest (negative : Bool) (num den : Nat)
    : Double :=
  if num == 0 then zero negative
  else
    let guess : Int := (num.log2 : Int) - den.log2
    let top := if atLeastPower num den guess then guess else guess - 1
    let exponent := max (top - 52) (-1074)
    assemble negative (scaledRound num den exponent) exponent

/-- The double nearest to an integer. -/
def ofInt (n : Int)
    : Double :=
  nearest (decide (n < 0)) n.natAbs 1

/-- The smallest and the largest 64-bit integer. -/
def minInt : Int := -(twoTo 63)

@[inherit_doc minInt]
def maxInt : Int := twoTo 63 - 1

/-- Whether an integer has a 64-bit representation. -/
def fits (n : Int)
    : Bool :=
  minInt ≤ n && n ≤ maxInt

/-- A 64-bit integer, if the argument has such a representation. -/
def checked (n : Int)
    : Option Int64 :=
  if fits n then some (.ofInt n) else none

/-- The integer part of a double, the nearest 64-bit integer when out of range, 0 for a NaN. -/
def toInt64 (x : Double)
    : Int64 :=
  if isNaN x then 0
  else
    let size : Int := if isFinite x then (Binary.ofDouble x).floor else maxInt + 1
    .ofInt (max minInt (min maxInt (if isNegative x then -size else size)))

end IncrementalLisp.Number
