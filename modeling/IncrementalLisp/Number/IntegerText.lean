import IncrementalLisp.Number.Binary

/-! Reading 64-bit integers: an optional sign and decimal digits. The digits are taken from left
to right, and the first one that is no digit, or that leads out of the range, decides the fault.
-/

namespace IncrementalLisp.Number

/-- Why a text is not a 64-bit integer. -/
inductive IntegerFault where
  | empty
  | malformed
  | tooLarge
  | tooSmall
deriving DecidableEq, Repr

/-- The wording of a fault. -/
def IntegerFault.message : IntegerFault → String
  | .empty => "cannot parse integer from empty string"
  | .malformed => "invalid digit found in string"
  | .tooLarge => "number too large to fit in target type"
  | .tooSmall => "number too small to fit in target type"

/-- Continues an integer of the given sign with further digits. -/
def continueInteger (negative : Bool)
    : Int → List Char → Except IntegerFault Int
  | value, [] => .ok value
  | value, d :: rest =>
      if d.isDigit then
        let digit : Int := d.toNat - '0'.toNat
        let next := if negative then value * 10 - digit else value * 10 + digit
        if fits next then continueInteger negative next rest
        else .error (if negative then .tooSmall else .tooLarge)
      else .error .malformed

/-- Reads a whole text as an integer. -/
def readInteger (text : String)
    : Except IntegerFault Int64 :=
  match text.toList with
  | [] => .error .empty
  | ['-'] | ['+'] => .error .malformed
  | '-' :: digits => (continueInteger true 0 digits).map Int64.ofInt
  | '+' :: digits => (continueInteger false 0 digits).map Int64.ofInt
  | digits => (continueInteger false 0 digits).map Int64.ofInt

end IncrementalLisp.Number
