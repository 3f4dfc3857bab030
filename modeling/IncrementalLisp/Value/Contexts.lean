import IncrementalLisp.Value.Basic

/-! The contexts that a value refers to: those of the functions in it, wherever they stand, also in
captured bindings and in the constants of programs.
-/

namespace IncrementalLisp

mutual

/-- The contexts of the functions in a value. -/
def Value.contexts : Value → List ContextId
  | .nil => []
  | .bool _ => []
  | .int _ => []
  | .float _ => []
  | .char _ => []
  | .string _ => []
  | .symbol _ => []
  | .keyword _ => []
  | .list items _ => contextsOfAll items
  | .vector items => contextsOfAll items
  | .map entries => contextsOfEntries entries
  | .set items => contextsOfAll items
  | .function f => f.contexts
  | .expander e => e.contexts
  | .node n => n.contexts
  | .type _ => []
termination_by structural v => v

/-- The contexts that a function refers to. -/
def Function.contexts : Function → List ContextId
  | .builtin _ => []
  | .closure c => c.contexts
termination_by structural f => f

/-- The contexts that a function written in the language refers to, its own first. -/
def Closure.contexts : Closure → List ContextId
  | ⟨_, _, _, body, captured, context⟩ =>
      context :: (body.contexts ++ contextsOfBindings captured)
termination_by structural c => c

/-- The contexts that an expander refers to. -/
def Expander.contexts : Expander → List ContextId
  | .initial _ => []
  | .form _ => []
  | .ofUser u => u.contexts
  | .ofMacro m => m.contexts
termination_by structural e => e

/-- The contexts that a user's expander refers to. -/
def UserExpander.contexts : UserExpander → List ContextId
  | ⟨_, _, _, body, captured⟩ => body.contexts ++ contextsOfBindings captured
termination_by structural u => u

/-- The contexts that a macro refers to. -/
def Macro.contexts : Macro → List ContextId
  | ⟨_, function⟩ => function.contexts
termination_by structural m => m

/-- The contexts that the constants of a node refer to. -/
def Node.contexts : Node → List ContextId
  | ⟨shape, _, _, _⟩ => shape.contexts
termination_by structural n => n

/-- The contexts that the constants of a shape refer to. -/
def Shape.contexts : Shape → List ContextId
  | .constant v => v.contexts
  | .lookup _ => []
  | .apply f args => f.contexts ++ contextsOfNodes args
  | .define _ expr => expr.contexts
  | .sequence body => contextsOfNodes body
  | .conditional test yes no => test.contexts ++ yes.contexts ++ no.contexts
  | .binding pairs body => contextsOfPairs pairs ++ body.contexts
  | .lambda _ _ body => body.contexts
  | .expander _ _ body => body.contexts
  | .quote form _ => form.contexts
  | .vector items => contextsOfNodes items
  | .list items => contextsOfNodes items
  | .hashMap items => contextsOfNodes items
  | .set items => contextsOfNodes items
  | .invoke target _ args => target.contexts ++ contextsOfNodes args
  | .invokeStatic _ _ args => contextsOfNodes args
  | .cast _ expr => expr.contexts
  | .instanceOf type expr => type.contexts ++ expr.contexts
termination_by structural s => s

/-- The contexts that several values refer to. -/
def contextsOfAll : List Value → List ContextId
  | [] => []
  | v :: rest => v.contexts ++ contextsOfAll rest
termination_by structural vs => vs

/-- The contexts that the keys and values of several entries refer to. -/
def contextsOfEntries : List (Value × Value) → List ContextId
  | [] => []
  | (k, v) :: rest => k.contexts ++ v.contexts ++ contextsOfEntries rest
termination_by structural es => es

/-- The contexts that bindings refer to. -/
def contextsOfBindings : List (Symbol × Value) → List ContextId
  | [] => []
  | (_, v) :: rest => v.contexts ++ contextsOfBindings rest
termination_by structural bs => bs

/-- The contexts that the constants of several nodes refer to. -/
def contextsOfNodes : List Node → List ContextId
  | [] => []
  | n :: rest => n.contexts ++ contextsOfNodes rest
termination_by structural ns => ns

/-- The contexts that the constants in a list of bindings refer to. -/
def contextsOfPairs : List (Symbol × Node) → List ContextId
  | [] => []
  | (_, n) :: rest => n.contexts ++ contextsOfPairs rest
termination_by structural ps => ps

end

end IncrementalLisp
