/-! The names of the special forms. How each of them expands is defined in the modules below
Expansion.
-/

namespace IncrementalLisp

/-- A special form. -/
inductive SpecialForm where
  | define
  | defineFunction
  | function
  | sequence
  | conditional
  | binding
  | quote
  | syntaxQuote
  | unquote
  | macroLiteral
  | defineMacro
  | expanderLiteral
  | member
  | cast
  | instanceOf
  | vector
  | list
  | set
  | hashMap
  | enterSpace
deriving DecidableEq, Repr

namespace SpecialForm

/-- Every special form, in the order in which a context comes to define them. -/
def all : List SpecialForm :=
  [define, defineFunction, function, sequence, conditional, binding, quote, syntaxQuote,
    unquote, macroLiteral, defineMacro, expanderLiteral, member, cast, instanceOf, vector, list,
    set, hashMap, enterSpace]

/-- The name at the head of a form. -/
def name : SpecialForm → String
  | define => "def"
  | defineFunction => "defn"
  | function => "fn"
  | sequence => "do"
  | conditional => "if"
  | binding => "let"
  | quote => "quote"
  | syntaxQuote => "syntax-quote"
  | unquote => "unquote"
  | macroLiteral => "macro"
  | defineMacro => "defmacro"
  | expanderLiteral => "expander"
  | member => "."
  | cast => "cast"
  | instanceOf => "instance?"
  | vector => "vector"
  | list => "list"
  | set => "set"
  | hashMap => "hashmap"
  | enterSpace => "ns"

end SpecialForm

end IncrementalLisp
