/-! The names of the primitive functions. What each of them computes is defined on values, in
the modules below Primitive.
-/

namespace IncrementalLisp

/-- A primitive function. -/
inductive Primitive where
  | add
  | subtract
  | multiply
  | divide
  | increment
  | decrement
  | equal
  | less
  | lessOrEqual
  | greater
  | greaterOrEqual
  | not
  | isNil
  | str
  | print
  | printLine
  | symbol
  | keyword
  | typeOf
  | count
  | first
  | rest
  | nth
  | cons
  | conj
  | concat
  | get
  | assoc
  | vec
  | apply
deriving DecidableEq, Repr

namespace Primitive

/-- Every primitive function, in the order in which a context comes to define them. -/
def all : List Primitive :=
  [add, subtract, multiply, divide, increment, decrement, equal, less, lessOrEqual, greater,
    greaterOrEqual, not, isNil, str, print, printLine, symbol, keyword, typeOf, count, first,
    rest, nth, cons, conj, concat, get, assoc, vec, apply]

/-- The name under which programs call a primitive. -/
def name : Primitive → String
  | add => "+"
  | subtract => "-"
  | multiply => "*"
  | divide => "/"
  | increment => "inc"
  | decrement => "dec"
  | equal => "="
  | less => "<"
  | lessOrEqual => "<="
  | greater => ">"
  | greaterOrEqual => ">="
  | not => "not"
  | isNil => "nil?"
  | str => "str"
  | print => "print"
  | printLine => "println"
  | symbol => "symbol"
  | keyword => "keyword"
  | typeOf => "type-of"
  | count => "count"
  | first => "first"
  | rest => "rest"
  | nth => "nth"
  | cons => "cons"
  | conj => "conj"
  | concat => "concat"
  | get => "get"
  | assoc => "assoc"
  | vec => "vec"
  | apply => "apply"

/-- The number of arguments, or none for a primitive that takes any number. -/
def arity? : Primitive → Option Nat
  | increment | decrement | not | isNil | typeOf | count | first | rest | vec => some 1
  | nth | cons => some 2
  | assoc => some 3
  | _ => none

/-- The primitive of a name. -/
def ofName? (name : String)
    : Option Primitive :=
  all.find? (·.name == name)

end Primitive

end IncrementalLisp
