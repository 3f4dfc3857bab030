import IncrementalLisp.Number.Shortest
import IncrementalLisp.Text.Blank

/-! Doubles as text. A whole number is written with all its digits and one zero after the
point, any other number as its shortest decimal in positional notation. Reading accepts a sign,
digits with an optional point and exponent, and the names of the infinities and of the NaNs.
-/

namespace IncrementalLisp.Number

/-- The text of a double's magnitude. -/
def magnitudeText (x : Double)
    : String :=
  if !isFinite x then "inf"
  else
    let b := Binary.ofDouble x
    if b.isWhole then toString b.floor ++ ".0" else b.shortest.trimmed.positional

/-- The text of a double. -/
def floatText (x : Double)
    : String :=
  if isNaN x then "NaN"
  else if isNegative x then "-" ++ magnitudeText x
  else magnitudeText x

/-- Why a text is not a number. -/
inductive FloatFault where
  | empty
  | malformed
deriving DecidableEq, Repr

/-- The wording of a fault. -/
def FloatFault.message : FloatFault → String
  | .empty => "cannot parse float from empty string"
  | .malformed => "invalid float literal"

/-- The value of a list of decimal digits. -/
def digitsValue (digits : List Char)
    : Nat :=
  digits.foldl (fun n d => n * 10 + (d.toNat - '0'.toNat)) 0

/-- The value of a list of decimal digits, put together from the values of its halves, and so on
for the given number of levels.
-/
def digitsValueByHalves : Nat → List Char → Nat
  | 0, digits => digitsValue digits
  | levels + 1, digits =>
      let (front, back) := digits.splitAt (digits.length / 2)
      digitsValueByHalves levels front * tenTo back.length + digitsValueByHalves levels back

/-- The value of a list of decimal digits that may be long. -/
def longValue (digits : List Char)
    : Nat :=
  digitsValueByHalves (digits.length / 64).log2 digits

/-- From this size on an exponent takes no further digits. -/
def exponentBound : Nat := 65536

/-- The value of the digits of an exponent. The digits after the one that takes the value to the
bound are passed over.
-/
def exponentValue (digits : List Char)
    : Nat :=
  digits.foldl
    (fun n d => if n < exponentBound then n * 10 + (d.toNat - '0'.toNat) else n) 0

/-- The double nearest to the value of digits * 10 ^ exponent. Magnitudes far outside the range of
doubles are not computed.
-/
def ofDecimal (negative : Bool) (digits : List Char) (exponent : Int)
    : Double :=
  let significant := digits.dropWhile (· == '0')
  let size : Int := significant.length + exponent
  if significant.isEmpty ∨ size < -400 then zero negative
  else if size > 400 then infinity negative
  else
    let (tenUp, tenDown) := powers 10 exponent
    nearest negative (longValue significant * tenUp) tenDown

/-- A sign and the rest of a text. -/
def splitSign : List Char → Bool × List Char
  | '-' :: rest => (true, rest)
  | '+' :: rest => (false, rest)
  | text => (false, text)

/-- The exponent after a mantissa: nothing, or a letter e, an optional sign and digits. -/
def readExponent? : List Char → Option Int
  | [] => some 0
  | e :: rest =>
      if e == 'e' || e == 'E' then
        let (negative, digits) := splitSign rest
        if !digits.isEmpty && digits.all Char.isDigit then
          some (if negative then -(exponentValue digits) else exponentValue digits)
        else none
      else none

/-- An unsigned number in decimal notation. -/
def readDecimal? (negative : Bool) (text : List Char)
    : Option Double :=
  let whole := text.takeWhile Char.isDigit
  let afterWhole := text.dropWhile Char.isDigit
  let (places, rest) :=
    match afterWhole with
    | '.' :: more => (more.takeWhile Char.isDigit, more.dropWhile Char.isDigit)
    | _ => ([], afterWhole)
  if whole.isEmpty && places.isEmpty then none
  else
    (readExponent? rest).map fun exponent =>
      ofDecimal negative (whole ++ places) (exponent - places.length)

/-- An unsigned name of a number that has no digits, in letters of either case. -/
def readName? (negative : Bool) (text : List Char)
    : Option Double :=
  match String.ofList (text.map Char.toLower) with
  | "inf" | "infinity" => some (infinity negative)
  | "nan" => some (notANumber negative)
  | _ => none

/-- Reads a whole text as a number. -/
def readFloat (text : String)
    : Except FloatFault Double :=
  if text.isEmpty then .error .empty
  else
    let (negative, rest) := splitSign text.toList
    match (readDecimal? negative rest).or (readName? negative rest) with
    | some x => .ok x
    | none => .error .malformed

end IncrementalLisp.Number
