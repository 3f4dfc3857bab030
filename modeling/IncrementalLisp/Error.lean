import IncrementalLisp.Number.IntegerText
import IncrementalLisp.Text.Wording
import IncrementalLisp.Value.Printer

/-! Everything that can go wrong with a program, by cause. Each kind of cause has its wording in
one function; the wording of an error adds the kind, the form and the place.
-/

namespace IncrementalLisp

/-- Why a text cannot be read. -/
inductive ReadFault where
  | unexpectedEnd
  | unexpectedClosing (c : Char)
  | unclosed (closing : Char)
  | oddMap
  | unknownDispatch (c : Option Char)
  | splicing
  | emptyKeyword
  | unterminatedString
  | unknownEscape (c : Char)
  | missingCharacter
  | unknownCharacter (name : String)
  | invalidNumber (token : String)
deriving DecidableEq, Repr

/-- The wording of a fault in a text. -/
def ReadFault.message : ReadFault → String
  | .unexpectedEnd => "unexpected end of input"
  | .unexpectedClosing c => String.ofList ("unexpected '".toList ++ [c, '\x27'])
  | .unclosed c =>
      String.ofList ("expected '".toList ++ [c, '\x27'] ++ " before end of input".toList)
  | .oddMap => "map literal must contain an even number of forms"
  | .unknownDispatch c => String.ofList ("unsupported dispatch #".toList ++ c.toList)
  | .splicing => "unquote-splicing is not supported"
  | .emptyKeyword => "empty keyword"
  | .unterminatedString => "unterminated string"
  | .unknownEscape c => String.ofList ("unknown escape \\".toList ++ [c])
  | .missingCharacter => "expected character"
  | .unknownCharacter name => "unknown character \\" ++ name
  | .invalidNumber token => "invalid number: " ++ token

/-- A fault in a text and its place. -/
structure ReadError where
  fault : ReadFault
  location : Option Location
deriving DecidableEq, Repr

/-- The wording of a reading error. -/
def ReadError.wording (e : ReadError)
    : Wording :=
  .plain ("Parse error: " ++ e.fault.message) ++ .atPlace e.location

/-- What is wrong with the shape of a form. -/
inductive ShapeFault where
  | notAList
  | expanderNotAList
  | macroNotAList
  | define
  | defineFunction
  | function
  | conditional
  | binding
  | oddBindings
  | quote
  | unquote
  | macroLiteral
  | defineMacro
  | expanderLiteral
  | noRestParameter
  | noRestSymbol
  | manyRestParameters
  | member
  | noMemberName
  | noTarget (member : String)
  | cast
  | instanceOf
  | oddHashMap
  | enterSpace
  | tooDeep
deriving DecidableEq, Repr

/-- The wording of a wrong shape. -/
def ShapeFault.message : ShapeFault → String
  | .notAList => "special form applied to a non-list"
  | .expanderNotAList => "expander applied to a non-list form"
  | .macroNotAList => "macro applied to a non-list form"
  | .define => "def requires a name and a value: (def name expr)"
  | .defineFunction => "defn requires a name and a parameter vector"
  | .function => "fn requires a parameter vector"
  | .conditional => "if requires a test, a then branch and an optional else branch"
  | .binding => "let requires a binding vector"
  | .oddBindings => "let binding vector must have an even number of forms"
  | .quote => "quote requires exactly one form"
  | .unquote => "unquote requires exactly one form"
  | .macroLiteral => "macro requires a parameter vector and a body"
  | .defineMacro => "defmacro requires a name, a parameter vector and a body"
  | .expanderLiteral => "expander requires [continuation [params]]"
  | .noRestParameter => "& must be followed by a parameter"
  | .noRestSymbol => "& must be followed by a symbol"
  | .manyRestParameters => "only one parameter may follow &"
  | .member => "(. target member args...) requires a target and a member"
  | .noMemberName => "missing member name"
  | .noTarget name => "." ++ name ++ " requires a target"
  | .cast => "cast requires a type and a value"
  | .instanceOf => "instance? requires a type and a value"
  | .oddHashMap => "hashmap requires an even number of forms"
  | .enterSpace => "ns requires a namespace name"
  | .tooDeep => "maximum expansion depth exceeded"

/-- The places of a form that take a symbol. -/
inductive NameRole where
  | definition
  | parameter
  | restParameter
  | binding
  | continuation
  | member
  | space
deriving DecidableEq, Repr

/-- The wording of a role. -/
def NameRole.text : NameRole → String
  | .definition => "def name"
  | .parameter => "parameter"
  | .restParameter => "rest parameter"
  | .binding => "let binding"
  | .continuation => "continuation"
  | .member => "member name"
  | .space => "namespace name"

/-- What is wrong with a part of a form. -/
inductive PartFault where
  | notASymbol (role : NameRole)
  | valueNotASymbol (role : NameRole) (got : Value)
  | parametersNotAVector
  | bindingsNotAVector
  | expanderHeader
  | expanderRest
  | notAType

/-- The wording of a wrong part. -/
def PartFault.message : PartFault → String
  | .notASymbol role => role.text ++ " must be a symbol"
  | .valueNotASymbol role got => role.text ++ " must be a symbol, got " ++ got.repr
  | .parametersNotAVector => "parameters must be a vector"
  | .bindingsNotAVector => "let bindings must be a vector"
  | .expanderHeader => "expander header must be [continuation [params]]"
  | .expanderRest => "expander parameters cannot include a rest parameter"
  | .notAType => "cast requires a type"

/-- Why a primitive function or a host member refuses its arguments. -/
inductive Fault where
  | expected (what : String) (got : Value)
  | expectedIndex (got : Value)
  | indexNotLong (got : Value)
  | notStrings
  | overflow
  | divisionByZero
  | notComparable
  | tooFewArguments (least got : Nat)
  | argumentCount (least most got : Nat)
  | outOfCount (index : Value) (count : Nat)
  | outOfBounds (index : Nat)
  | rangeOutOfBounds (start stop : Nat)
  | notAnEntry
  | cannot (deed : String) (on : Value)
  | noSize (v : Value)
  | notIndexed (v : Value)
  | integer (fault : Number.IntegerFault)
  | float (fault : Number.FloatFault)
  | inCall (text : Wording)

/-- The wording of a refusal. That of an error in a call is the wording of the error. -/
def Fault.wording : Fault → Wording
  | .expected what got => .plain ("expected " ++ what ++ ", got " ++ got.typeName)
  | .expectedIndex got => .plain ("expected index, got " ++ got.repr)
  | .indexNotLong got => .plain ("index must be a long, got " ++ got.typeName)
  | .notStrings => .plain "expected string arguments"
  | .overflow => .plain "integer overflow"
  | .divisionByZero => .plain "divide by zero"
  | .notComparable => .plain "cannot compare NaN"
  | .tooFewArguments least got =>
      .plain ("expects at least " ++ toString least
        ++ (if least == 1 then " argument" else " arguments") ++ ", got " ++ toString got)
  | .argumentCount least most got =>
      .plain ("expects " ++ toString least ++ " or " ++ toString most ++ " arguments, got "
        ++ toString got)
  | .outOfCount index count =>
      .plain ("index " ++ index.repr ++ " out of bounds for count " ++ toString count)
  | .outOfBounds index => .plain ("index " ++ toString index ++ " out of bounds")
  | .rangeOutOfBounds start stop =>
      .plain ("range " ++ toString start ++ ".." ++ toString stop ++ " out of bounds")
  | .notAnEntry => .plain "map entries must be [key value] pairs"
  | .cannot deed on => .plain ("cannot " ++ deed ++ " " ++ on.typeName)
  | .noSize v => .plain (v.typeName ++ " has no size")
  | .notIndexed v => .plain (v.typeName ++ " is not indexed")
  | .integer fault => .plain fault.message
  | .float fault => .plain fault.message
  | .inCall text => text

/-- Why a call of native code fails. -/
inductive CallFault where
  | refused (callee : String) (fault : Fault)
  | oddHashMap
  | unknownType (type : String)
  | noStaticMember (type member : String) (count : Nat)
  | noReceiver (member : String) (target : Value)
  | noMember (type member : String) (count : Nat)

/-- The wording of a failed call. -/
def CallFault.wording : CallFault → Wording
  | .refused callee fault => .plain (callee ++ ": ") ++ fault.wording
  | .oddHashMap => .plain "hashmap requires an even number of forms"
  | .unknownType type => .plain ("unknown type " ++ type)
  | .noStaticMember type member count =>
      .plain ("no static member " ++ type ++ "/" ++ member ++ " taking " ++ toString count
        ++ " argument(s)")
  | .noReceiver member target =>
      .plain ("cannot invoke " ++ member ++ " on " ++ target.typeName)
  | .noMember type member count =>
      .plain ("no member " ++ member ++ " on " ++ type ++ " taking " ++ toString count
        ++ " argument(s)")

/-- How many arguments a callable takes. -/
inductive Arity where
  | exactly (count : Nat)
  | atLeast (count : Nat)
deriving DecidableEq, Repr

namespace Arity

/-- Whether a number of arguments is accepted. -/
def accepts : Arity → Nat → Bool
  | .exactly n, count => count == n
  | .atLeast n, count => n ≤ count

/-- The wording of an arity. -/
def text : Arity → String
  | .exactly n => toString n
  | .atLeast n => "at least " ++ toString n

end Arity

/-- An error of a program, or of the text it was to be read from. -/
inductive EvalError where
  | expansion (fault : ShapeFault) (form : Value)
  | analysis (fault : PartFault) (form : Value)
  | unresolvedSymbol (symbol : Symbol)
  | cyclicDependency (symbol : Symbol)
  | invocation (fault : CallFault) (cause : Option EvalError)
  | stackOverflow (depth limit : Nat)
  | arity (callee : String) (expected : Arity) (got : Nat)
  | type (expected got : String)
  | reading (error : ReadError)

namespace EvalError

/-- A failed call without an underlying error. -/
abbrev call (fault : CallFault)
    : EvalError :=
  .invocation fault none

/-- A value that is not of the type required of it. -/
def wrongType (expected : String) (got : Value)
    : EvalError :=
  .type expected got.typeName

/-- A form as it is named in an error, with its place. -/
def site (form : Value)
    : Wording :=
  .plain (" in " ++ form.repr) ++ .atPlace form.location?

/-- The wording of an error. -/
def wording : EvalError → Wording
  | .expansion fault form => .plain ("Expansion error: " ++ fault.message) ++ site form
  | .analysis fault form => .plain ("Analysis error: " ++ fault.message) ++ site form
  | .unresolvedSymbol s => .plain ("Unresolved symbol: " ++ s.toString)
  | .cyclicDependency s => .plain ("Cyclic dependency while computing " ++ s.toString)
  | .invocation fault _ => .plain "Invocation error: " ++ fault.wording
  | .stackOverflow depth limit =>
      .plain ("Stack overflow: call depth " ++ toString depth ++ " exceeds maximum "
        ++ toString limit)
  | .arity callee expected got =>
      .plain ("Arity error: " ++ callee ++ " expects " ++ expected.text ++ " argument(s), got "
        ++ toString got)
  | .type expected got => .plain ("Type error: expected " ++ expected ++ ", got " ++ got)
  | .reading error => error.wording

/-- The text of an error. -/
def text (e : EvalError)
    : String :=
  e.wording.text

/-- The symbol that could not be resolved, also when the error lies under a failed call. -/
def unresolved? : EvalError → Option Symbol
  | .unresolvedSymbol s => some s
  | .invocation _ (some cause) => cause.unresolved?
  | _ => none

end EvalError

end IncrementalLisp
