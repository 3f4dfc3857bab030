import IncrementalLisp.Number.FloatText
import IncrementalLisp.Text.Quoted
import IncrementalLisp.Value.Basic

/-! The two printed forms of a value. The readable form quotes strings and spells characters
with a backslash; the plain form, used for output, leaves a string or a character as it is.
Nodes are printed as lists headed by the name of their shape.
-/

namespace IncrementalLisp

/-- Parts with a space between them. -/
def spaced (parts : List String)
    : String :=
  " ".intercalate parts

/-- A list of symbols in brackets, with commas. -/
def listed (symbols : List Symbol)
    : String :=
  "[" ++ ", ".intercalate (symbols.map toString) ++ "]"

/-- The readable form of a character. -/
def charText : Char → String
  | ' ' => "\\space"
  | '\n' => "\\newline"
  | '\t' => "\\tab"
  | c => String.ofList ['\\', c]

/-- The readable form of a keyword. -/
def keywordText (s : Symbol)
    : String :=
  ":" ++ s.toString

/-- The readable form of an integer. -/
def integerText (n : Int64)
    : String :=
  toString n.toInt

/-- Parameters as they are written in a program. -/
def paramsText (params : List Symbol) (rest : Option Symbol)
    : String :=
  let tail := match rest with
    | some r => ["&", r.toString]
    | none => []
  "[" ++ spaced (params.map toString ++ tail) ++ "]"

/-- The readable form of a function. -/
def Function.repr : Function → String
  | .builtin p => "#<builtin " ++ p.name ++ ">"
  | .closure c => "#<Closure(" ++ paramsText c.params c.rest ++ ")>"

/-- The readable form of an expander. -/
def Expander.repr : Expander → String
  | .initial _ => "#<expander initial>"
  | .form f => "#<special-form " ++ f.name ++ ">"
  | .ofUser u => "#<expander " ++ listed u.params ++ ">"
  | .ofMacro _ => "#<macro>"

mutual

/-- The readable form of a value. -/
def Value.repr : Value → String
  | .nil => "nil"
  | .bool b => if b then "true" else "false"
  | .int n => integerText n
  | .float x => Number.floatText x
  | .char c => charText c
  | .string s => Text.quote s
  | .symbol s => s.toString
  | .keyword s => keywordText s
  | .list items _ => "(" ++ spaced (reprsOf items) ++ ")"
  | .vector items => "[" ++ spaced (reprsOf items) ++ "]"
  | .map entries => "\x7b" ++ ", ".intercalate (reprsOfEntries entries) ++ "\x7d"
  | .set items => "#\x7b" ++ spaced (reprsOf items) ++ "\x7d"
  | .function f => f.repr
  | .expander e => e.repr
  | .node n => "#<node " ++ n.repr ++ ">"
  | .type name => name
termination_by structural v => v

/-- The readable forms of several values. -/
def reprsOf : List Value → List String
  | [] => []
  | v :: rest => v.repr :: reprsOf rest
termination_by structural vs => vs

/-- The readable forms of map entries. -/
def reprsOfEntries : List (Value × Value) → List String
  | [] => []
  | (k, v) :: rest => (k.repr ++ " " ++ v.repr) :: reprsOfEntries rest
termination_by structural es => es

/-- The printed form of a node. -/
def Node.repr : Node → String
  | ⟨shape, _, _, _⟩ => "(" ++ shape.repr ++ ")"
termination_by structural n => n

/-- The printed form of a shape, without the parentheses of its node. -/
def Shape.repr : Shape → String
  | .constant v => "Constant " ++ v.repr
  | .lookup s => "Lookup " ++ s.toString
  | .apply f args => spaced ("Apply" :: f.repr :: nodeReprs args)
  | .define s expr => spaced ["Define", s.toString, expr.repr]
  | .sequence body => spaced ("Do" :: nodeReprs body)
  | .conditional test yes no => spaced ["If", test.repr, yes.repr, no.repr]
  | .binding pairs body => spaced ["Let", "[" ++ spaced (pairReprs pairs) ++ "]", body.repr]
  | .lambda params none body => spaced ["Lambda", listed params, body.repr]
  | .lambda params (some r) body =>
      spaced ["Lambda", listed params, "&", r.toString, body.repr]
  | .expander k params body => spaced ["Expander", k.toString, listed params, body.repr]
  | .quote form _ => "Quote " ++ form.repr
  | .vector items => spaced ("Vector" :: nodeReprs items)
  | .list items => spaced ("List" :: nodeReprs items)
  | .hashMap items => spaced ("HashMap" :: nodeReprs items)
  | .set items => spaced ("Set" :: nodeReprs items)
  | .invoke target member args =>
      spaced ("InvokeInstance" :: target.repr :: member.toString :: nodeReprs args)
  | .invokeStatic type member args =>
      spaced ("InvokeStatic" :: type :: member.toString :: nodeReprs args)
  | .cast type expr => spaced ["Cast", type, expr.repr]
  | .instanceOf type expr => spaced ["InstanceOf", type.repr, expr.repr]
termination_by structural s => s

/-- The printed forms of several nodes. -/
def nodeReprs : List Node → List String
  | [] => []
  | n :: rest => n.repr :: nodeReprs rest
termination_by structural ns => ns

/-- The printed forms of the parts of a list of bindings. -/
def pairReprs : List (Symbol × Node) → List String
  | [] => []
  | (s, n) :: rest => s.toString :: n.repr :: pairReprs rest
termination_by structural ps => ps

end

/-- The plain form of a value. -/
def Value.text : Value → String
  | .string s => s
  | .char c => String.ofList [c]
  | v => v.repr

end IncrementalLisp
