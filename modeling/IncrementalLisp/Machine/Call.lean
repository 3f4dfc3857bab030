import IncrementalLisp.Machine.Basic
import IncrementalLisp.Node.Specialize
import IncrementalLisp.Primitive.Compute

/-! Calling values. A function written in the language binds its arguments and evaluates its body
in the context in which it was written. An expander that is called as a function takes one form
and returns the node of it.
-/

namespace IncrementalLisp

/-- Refuses a number of arguments other than the one a primitive takes. -/
def Primitive.checkArity (p : Primitive) (args : List Value)
    : Except EvalError Unit :=
  match p.arity? with
  | none => .ok ()
  | some n =>
      if args.length == n then .ok () else .error (.arity p.name (.exactly n) args.length)

namespace Closure

/-- The arguments that a function takes. -/
def arity (f : Closure)
    : Arity :=
  match f.rest with
  | none => .exactly f.params.length
  | some _ => .atLeast f.params.length

/-- The captured bindings with the parameters bound to arguments, and the rest parameter to the
vector of the remaining arguments.
-/
def frame (f : Closure) (args : List Value)
    : Bindings :=
  let bound := (f.params.zip args).foldl (fun b (s, v) => Bindings.insert b s v) f.captured
  match f.rest with
  | none => bound
  | some r => Bindings.insert bound r (.vector (args.drop f.params.length))

end Closure

/-- The number of nested expansions that an expander may start when a program calls it. -/
def defaultExpansionLimit : Nat := 256

/-- A node as a value. A node that has not been a value before becomes an object of its own. -/
def Node.asValue (n : Node)
    : Run Value := do
  match n.identity with
  | some _ => return .node n
  | none => return .node { n with identity := some (← Run.newIdentity) }

namespace Machine

variable (m : Machine)

/-- Calls a function written in the language. -/
def callClosure (f : Closure) (args : List Value)
    : Run Value := do
  if !f.arity.accepts args.length then Run.fail (.arity "fn" f.arity args.length)
  else
    let frame := f.frame args
    Run.insideCall (m.compute (f.body.specialized frame) f.context frame)

/-- Calls the primitive that calls a function. An error of the function is reported by its text.
-/
def callApply (args : List Value) (c : ContextId)
    : Run (Except Fault Value) := do
  match Primitive.spread args with
  | .error fault => return .error fault
  | .ok (f, spread) =>
      match ← Run.attempt (Run.holding args (m.call (.function f) spread c)) with
      | .ok v => return .ok v
      | .error e => return .error (.inCall e.wording)

/-- Calls a primitive. -/
def callPrimitive (p : Primitive) (args : List Value) (c : ContextId)
    : Run Value := do
  Run.ofExcept (p.checkArity args)
  let result ←
    if p == .apply then m.callApply args c
    else do
      Run.write (p.output args)
      let a ← Run.arrangementIf p.enlarges
      pure (p.compute a args)
  match result with
  | .ok v => return v
  | .error fault => Run.fail (.call (.refused p.name fault))

/-- Calls an expander on a form. -/
def callExpander (e : Expander) (args : List Value) (c : ContextId)
    : Run Value := do
  match args with
  | [form] =>
      let continuation := match e with
        | .initial n => .initial n
        | _ => .initial defaultExpansionLimit
      (← m.expand e c form continuation).asValue
  | _ => Run.fail (.arity "expander" (.exactly 1) args.length)

/-- Calls a value. -/
def callValue (callee : Value) (args : List Value) (c : ContextId)
    : Run Value :=
  match callee with
  | .function (.builtin p) => m.callPrimitive p args c
  | .function (.closure f) => m.callClosure f args
  | .expander e => m.callExpander e args c
  | other => Run.fail (.wrongType "function" other)

end Machine

end IncrementalLisp
