import IncrementalLisp.Location
import IncrementalLisp.Number.Binary
import IncrementalLisp.Primitive
import IncrementalLisp.SpecialForm
import IncrementalLisp.Symbol

/-! Values and nodes. Values are what programs compute with and also the forms they are written
in; nodes are analysed programs. The two refer to each other: a node holds constants, and
closures, expanders and node values hold nodes.

Functions, expanders and node values are compared by identity, a number given when one comes
into being. Contexts are named by number too, because a context and the closures it owns would
otherwise contain each other.
-/

namespace IncrementalLisp

/-- The number that tells apart values of the same content. -/
abbrev Identity := Nat

/-- The number of a context in a store. -/
abbrev ContextId := Nat

mutual

/-- A runtime value or a form. -/
inductive Value where
  | nil
  | bool (b : Bool)
  | int (n : Int64)
  | float (x : Number.Double)
  | char (c : Char)
  | string (s : String)
  | symbol (s : Symbol)
  | keyword (s : Symbol)
  | list (items : List Value) (source : Option Location)
  | vector (items : List Value)
  | map (entries : List (Value × Value))
  | set (items : List Value)
  | function (f : Function)
  | expander (e : Expander)
  | node (n : Node)
  | type (name : String)

/-- A primitive, or a function written in the language. -/
inductive Function where
  | builtin (p : Primitive)
  | closure (c : Closure)

/-- A function with the bindings and the context in which it was written. -/
structure Closure where
  identity : Identity
  params : List Symbol
  rest : Option Symbol
  body : Node
  captured : List (Symbol × Value)
  context : ContextId

/-- A function from forms to nodes. -/
inductive Expander where
  | initial (remaining : Nat)
  | form (f : SpecialForm)
  | ofUser (u : UserExpander)
  | ofMacro (m : Macro)

/-- An expander whose body sees the continuation and the argument forms. -/
structure UserExpander where
  identity : Identity
  continuation : Symbol
  params : List Symbol
  body : Node
  captured : List (Symbol × Value)

/-- An expander that calls a function on the argument forms and expands the result. -/
structure Macro where
  identity : Identity
  function : Function

/-- An analysed program: its shape, the dependencies recorded on it in addition to those of its
shape, the place of its form, and its identity once it has been a value.
-/
structure Node where
  shape : Shape
  recorded : SymbolSet
  source : Option Location
  identity : Option Identity

/-- What a node does. -/
inductive Shape where
  | constant (value : Value)
  | lookup (symbol : Symbol)
  | apply (function : Node) (args : List Node)
  | define (symbol : Symbol) (expr : Node)
  | sequence (body : List Node)
  | conditional (test thenBranch elseBranch : Node)
  | binding (pairs : List (Symbol × Node)) (body : Node)
  | lambda (params : List Symbol) (rest : Option Symbol) (body : Node)
  | expander (continuation : Symbol) (params : List Symbol) (body : Node)
  | quote (form : Value) (isSyntax : Bool)
  | vector (items : List Node)
  | list (items : List Node)
  | hashMap (items : List Node)
  | set (items : List Node)
  | invoke (target : Node) (member : Symbol) (args : List Node)
  | invokeStatic (type : String) (member : Symbol) (args : List Node)
  | cast (type : String) (expr : Node)
  | instanceOf (type expr : Node)

end

/-- Values of lexical names. -/
abbrev Bindings := List (Symbol × Value)

instance : Inhabited Value := ⟨.nil⟩

namespace Value

/-- A list that was not read from a text. -/
abbrev listOf (items : List Value)
    : Value :=
  .list items none

/-- The value of a condition: true, or nil. -/
def truth (condition : Bool)
    : Value :=
  if condition then .bool true else .nil

/-- Whether a value selects the first branch of a conditional. Only nil does not. -/
def isTruthy : Value → Bool
  | .nil => false
  | _ => true

/-- Whether a value is an integer or a float. -/
def isNumber : Value → Bool
  | .int _ | .float _ => true
  | _ => false

/-- The place from which a form was read, known of lists alone. -/
def location? : Value → Option Location
  | .list _ source => source
  | _ => none

/-- The name of a value's type. -/
def typeName : Value → String
  | .nil => "nil"
  | .bool _ => "boolean"
  | .int _ => "long"
  | .float _ => "double"
  | .char _ => "char"
  | .string _ => "string"
  | .symbol _ => "symbol"
  | .keyword _ => "keyword"
  | .list _ _ => "list"
  | .vector _ => "vector"
  | .map _ => "map"
  | .set _ => "set"
  | .function _ => "function"
  | .expander _ => "expander"
  | .node _ => "node"
  | .type _ => "type"

end Value

namespace Bindings

/-- The value of a name. -/
def get? (b : Bindings) (s : Symbol)
    : Option Value :=
  List.lookup s b

/-- The bindings without a name. -/
def erase (b : Bindings) (s : Symbol)
    : Bindings :=
  b.filter (·.1 != s)

/-- The bindings with a name given a value. -/
def insert (b : Bindings) (s : Symbol) (v : Value)
    : Bindings :=
  (s, v) :: b.erase s

/-- The bindings without several names. -/
def eraseAll (b : Bindings) (names : List Symbol)
    : Bindings :=
  names.foldl erase b

/-- The values of all names. -/
def values (b : Bindings)
    : List Value :=
  b.map (·.2)

/-- The value of a lookup in the bindings. Only bare symbols are lexical. -/
def lexical? (b : Bindings) (s : Symbol)
    : Option Value :=
  if s.isQualified then none else b.get? s

/-- Looking a symbol up asks the first binding and then the others, by cases on the symbols. -/
theorem get?_cons (s t : Symbol) (v : Value) (b : Bindings)
    : get? ((s, v) :: b) t = if t = s then some v else b.get? t := by
  by_cases h : t = s
  · simp [get?, h]
  · have differ : (t == s) = false := by simp [h]
    simp [get?, List.lookup_cons, h, differ]

/-- Erasing a symbol takes the first binding if it is that one, by cases on the symbols. -/
theorem erase_cons (s t : Symbol) (v : Value) (b : Bindings)
    : erase ((s, v) :: b) t = if s = t then b.erase t else (s, v) :: b.erase t := by
  by_cases h : s = t <;> simp [erase, h]

/-- After a symbol was erased, it has no value and the others keep theirs, by induction on the
bindings.
-/
theorem get?_erase (b : Bindings) (s t : Symbol)
    : (b.erase s).get? t = if t = s then none else b.get? t := by
  induction b with
  | nil => simp [erase, get?]
  | cons entry rest ih =>
      obtain ⟨name, v⟩ := entry
      rw [erase_cons, get?_cons]
      by_cases dropped : name = s
      · rw [if_pos dropped, ih]
        by_cases asked : t = s <;> simp [dropped, asked]
      · by_cases asked : t = name <;> simp [dropped, ih, get?_cons, asked]

/-- An inserted symbol has its new value and the others keep theirs, by looking past what was
erased.
-/
theorem get?_insert (b : Bindings) (s t : Symbol) (v : Value)
    : (b.insert s v).get? t = if t = s then some v else b.get? t := by
  unfold insert
  rw [get?_cons, get?_erase]
  by_cases asked : t = s <;> simp [asked]

/-- Erased symbols have no value and the others keep theirs, by induction on the names. -/
theorem get?_eraseAll (b : Bindings) (names : List Symbol) (t : Symbol)
    : (b.eraseAll names).get? t = if t ∈ names then none else b.get? t := by
  induction names generalizing b with
  | nil => simp [eraseAll]
  | cons s rest ih =>
      have step : b.eraseAll (s :: rest) = (b.erase s).eraseAll rest := rfl
      rw [step, ih, get?_erase]
      by_cases first : t = s <;> by_cases later : t ∈ rest <;> simp [first, later]

end Bindings

end IncrementalLisp
