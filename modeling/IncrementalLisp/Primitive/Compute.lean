import IncrementalLisp.Primitive.Arithmetic
import IncrementalLisp.Primitive.Collections

/-! What each primitive computes. Two primitives write text as well, which is given apart; the
one that calls functions only prepares the call here.
-/

namespace IncrementalLisp.Primitive

open Arithmetic Collections

/-- The plain forms of the arguments that are not nil, one after the other. -/
def joined (args : List Value)
    : String :=
  String.join ((args.filter Value.isTruthy).map Value.text)

/-- A symbol made from one or two texts: a spelling, or a namespace and a name. -/
def symbolOfTexts : List Value → Except Fault Symbol
  | [.string text] => .ok (Symbol.ofString text)
  | [.string space, .string name] => .ok (Symbol.inSpace space name)
  | [_] => .error .notStrings
  | [_, _] => .error .notStrings
  | args => .error (.argumentCount 1 2 args.length)

/-- A symbol made from a symbol or from texts. -/
def symbolOf : List Value → Except Fault Value
  | [.symbol s] => .ok (.symbol s)
  | args => do .ok (.symbol (← symbolOfTexts args))

/-- A keyword made from a keyword, a symbol or texts. -/
def keywordOf : List Value → Except Fault Value
  | [.keyword s] => .ok (.keyword s)
  | [.symbol s] => .ok (.keyword s)
  | args => do .ok (.keyword (← symbolOfTexts args))

/-- The function and the arguments of a call whose last argument is a collection of further
arguments.
-/
def spread : List Value → Except Fault (Function × List Value)
  | .function f :: next :: more => do
      let items ← itemsArg ((next :: more).getLast (List.cons_ne_nil _ _))
      .ok (f, (next :: more).dropLast ++ items)
  | other :: _ :: _ => .error (.cannot "apply" other)
  | args => .error (.tooFewArguments 2 args.length)

/-- The text that a primitive writes. -/
def output : Primitive → List Value → String
  | print, args => " ".intercalate (args.map Value.text)
  | printLine, args => " ".intercalate (args.map Value.text) ++ "\n"
  | _, _ => ""

/-- Whether a primitive puts items into tables. -/
def enlarges : Primitive → Bool
  | conj | assoc => true
  | _ => false

/-- The value of a primitive on arguments of the right number; a table that it enlarges is arranged
as given. The last case is left to the check of that number and to the primitive that calls
functions.
-/
def compute (a : Arrangement)
    : Primitive → List Value → Except Fault Value
  | add, args => sum args
  | subtract, args => difference args
  | multiply, args => product args
  | divide, args => quotient args
  | increment, [v] => plus v (.int 1)
  | decrement, [v] => minus v (.int 1)
  | equal, args => allEqual args
  | less, args => ordered Ordering.isLT args
  | lessOrEqual, args => ordered Ordering.isLE args
  | greater, args => ordered Ordering.isGT args
  | greaterOrEqual, args => ordered Ordering.isGE args
  | not, [v] => .ok (.truth !v.isTruthy)
  | isNil, [v] => .ok (.truth !v.isTruthy)
  | str, args => .ok (.string (joined args))
  | print, _ => .ok .nil
  | printLine, _ => .ok .nil
  | symbol, args => symbolOf args
  | keyword, args => keywordOf args
  | typeOf, [v] => .ok (.string v.typeName)
  | count, [v] => countOf v
  | first, [v] => firstOf v
  | rest, [v] => restOf v
  | nth, [v, i] => itemAt v i
  | cons, [item, coll] => consOnto item coll
  | conj, args => conjoinAll a args
  | concat, args => concatenated args
  | get, args => lookedUp args
  | assoc, [coll, key, value] => associated a coll key value
  | vec, [v] => do .ok (.vector (← itemsArg v))
  | p, args => .error (.argumentCount (p.arity?.getD 0) (p.arity?.getD 0) args.length)

end IncrementalLisp.Primitive
