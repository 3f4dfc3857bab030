import IncrementalLisp.Error
import IncrementalLisp.Number.Double
import IncrementalLisp.Value.Equality

/-! The primitives on numbers. Integers stay integers and never wrap: a result outside the
64-bit range is a fault. As soon as one operand is a float, the operation is one on floats; so
is a division that is not exact.
-/

namespace IncrementalLisp.Arithmetic

/-- A number argument. -/
def numberArg (v : Value)
    : Except Fault Value :=
  if v.isNumber then .ok v else .error (.expected "a number" v)

/-- A number as a float; zero for other values. -/
def asFloat : Value → Number.Double
  | .int n => Number.ofInt n.toInt
  | .float x => x
  | _ => Number.zero false

/-- An integer result, if it has 64 bits. -/
def integerResult (n : Int)
    : Except Fault Value :=
  match Number.checked n with
  | some m => .ok (.int m)
  | none => .error .overflow

/-- An operation on integers, or on floats if one operand is a float. -/
def numeric (onIntegers : Int → Int → Int)
    (onFloats : Number.Double → Number.Double → Number.Double) (a b : Value)
    : Except Fault Value := do
  match ← numberArg a, ← numberArg b with
  | .int x, .int y => integerResult (onIntegers x.toInt y.toInt)
  | x, y => .ok (.float (onFloats (asFloat x) (asFloat y)))

/-- Addition. -/
def plus : Value → Value → Except Fault Value :=
  numeric (· + ·) (· + ·)

/-- Subtraction. -/
def minus : Value → Value → Except Fault Value :=
  numeric (· - ·) (· - ·)

/-- Multiplication. -/
def times : Value → Value → Except Fault Value :=
  numeric (· * ·) (· * ·)

/-- Division of floats. -/
def quotientOfFloats (x y : Number.Double)
    : Except Fault Value :=
  if y.isZero then .error .divisionByZero else .ok (.float (x / y))

/-- Division. The quotient of two integers is an integer when it is exact and has 64 bits. -/
def dividedBy (a b : Value)
    : Except Fault Value := do
  match ← numberArg a, ← numberArg b with
  | .int x, .int y =>
      if y == 0 then .error .divisionByZero
      else if x.toInt.tmod y.toInt == 0 && Number.fits (x.toInt.tdiv y.toInt) then
        .ok (.int (.ofInt (x.toInt.tdiv y.toInt)))
      else quotientOfFloats (Number.ofInt x.toInt) (Number.ofInt y.toInt)
  | x, .int y =>
      if y == 0 then .error .divisionByZero
      else quotientOfFloats (asFloat x) (Number.ofInt y.toInt)
  | x, y => quotientOfFloats (asFloat x) (asFloat y)

/-- An operation taken from left to right over one or more numbers. -/
def folded (op : Value → Value → Except Fault Value)
    : List Value → Except Fault Value
  | [] => .error (.tooFewArguments 1 0)
  | first :: rest => do
      let start ← numberArg first
      rest.foldlM op start

/-- The sum of any number of numbers. -/
def sum : List Value → Except Fault Value
  | [] => .ok (.int 0)
  | args => folded plus args

/-- The product of any number of numbers. -/
def product : List Value → Except Fault Value
  | [] => .ok (.int 1)
  | args => folded times args

/-- The difference of one or more numbers; a single one is negated. -/
def difference : List Value → Except Fault Value
  | [only] => minus (.int 0) only
  | args => folded minus args

/-- The quotient of one or more numbers; a single one is inverted. -/
def quotient : List Value → Except Fault Value
  | [only] => dividedBy (.int 1) only
  | args => folded dividedBy args

/-- Equality in programs: numbers are equal when their values are, whatever their types. -/
def equivalent : Value → Value → Bool
  | .int x, .float y => (Number.ofInt x.toInt).order? y == some .eq
  | .float y, .int x => (Number.ofInt x.toInt).order? y == some .eq
  | a, b => a == b

/-- Whether a test holds between each argument and the next. -/
def chained (test : Value → Value → Bool)
    : List Value → Bool
  | a :: b :: rest => test a b && chained test (b :: rest)
  | _ => true

/-- Whether all arguments are equal. -/
def allEqual : List Value → Except Fault Value
  | [] => .error (.tooFewArguments 1 0)
  | args => .ok (.truth (chained equivalent args))

/-- The order of two floats, unless one is a NaN. -/
def orderOfFloats (x y : Number.Double)
    : Except Fault Ordering :=
  match x.order? y with
  | some order => .ok order
  | none => .error .notComparable

/-- The order of two numbers. -/
def order (a b : Value)
    : Except Fault Ordering := do
  match ← numberArg a, ← numberArg b with
  | .int x, .int y => .ok (compare x.toInt y.toInt)
  | x, y => orderOfFloats (asFloat x) (asFloat y)

/-- Whether each argument stands in an order to the next. The first pair that does not ends the
comparison.
-/
def compareChain (holds : Ordering → Bool)
    : List Value → Except Fault Value
  | a :: b :: rest => do
      if holds (← order a b) then compareChain holds (b :: rest) else .ok .nil
  | _ => .ok (.bool true)

/-- Whether the arguments, of which there is at least one, stand in an order. -/
def ordered (holds : Ordering → Bool)
    : List Value → Except Fault Value
  | [] => .error (.tooFewArguments 1 0)
  | [only] => do
      let _ ← numberArg only
      .ok (.bool true)
  | args => compareChain holds args

end IncrementalLisp.Arithmetic
