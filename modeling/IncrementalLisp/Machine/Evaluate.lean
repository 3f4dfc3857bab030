import IncrementalLisp.Machine.Basic
import IncrementalLisp.Node.Optimize

/-! Evaluating nodes. Only a definition makes a new context. Sequences, conditionals and bindings
pass the context on from part to part; every other node drops what its parts do to the context.
-/

namespace IncrementalLisp.Machine

variable (m : Machine)

/-- Evaluates nodes in order, each in the context that the one before it left. The value of the one
before it is at hand until its own is there.
-/
def evalSequence : List Node → Value → ContextId → Bindings → Run (Value × ContextId)
  | [], last, c, _ => return (last, c)
  | node :: rest, last, c, b => do
      let (v, c) ← Run.holding [last] (m.eval node c b)
      evalSequence rest v c b

/-- Evaluates the expressions of a list of bindings, all under the outer bindings. -/
def evalPairs (outer : Bindings)
    : List (Symbol × Node) → Bindings → ContextId → Run (Bindings × ContextId)
  | [], b, c => return (b, c)
  | (s, expr) :: rest, b, c => do
      let (v, c) ← Run.holding b.values (m.eval expr c outer)
      evalPairs outer rest (b.insert s v) c

/-- The function that a function literal makes in a context under lexical bindings. -/
def closureOf (params : List Symbol) (rest : Option Symbol) (body : Node) (c : ContextId)
    (b : Bindings)
    : Run Closure := do
  let captured := b.eraseAll (params ++ rest.toList)
  return ⟨← Run.newIdentity, params, rest, body.specialized captured, captured, c⟩

/-- The expander that an expander literal makes under lexical bindings. -/
def userExpanderOf (continuation : Symbol) (params : List Symbol) (body : Node) (b : Bindings)
    : Run UserExpander := do
  let captured := b.eraseAll (params ++ [continuation])
  return ⟨← Run.newIdentity, continuation, params, body.specialized captured, captured⟩

/-- The value of a node, and the context after it. -/
def evalNode (node : Node) (c : ContextId) (b : Bindings)
    : Run (Value × ContextId) := do
  match node.shape with
  | .constant v => return (v, c)
  | .lookup s =>
      match b.lexical? s with
      | some v => return (v, c)
      | none => return (← m.valueOf c s, c)
  | .apply f args =>
      let callee ← m.compute f c b
      let values ← Run.holding [callee] (m.computeAll args c b)
      return (← m.call callee values c, c)
  | .define s expr => return (.nil, ← m.define c s (expr.specialized b) b)
  | .sequence body => m.evalSequence body .nil c b
  | .conditional test yes no =>
      let (v, c) ← m.eval test c b
      Run.holding [v] (m.eval (if v.isTruthy then yes else no) c b)
  | .binding pairs body =>
      let (inner, c) ← m.evalPairs b pairs b c
      m.eval body c inner
  | .lambda params rest body =>
      return (.function (.closure (← closureOf params rest body c b)), c)
  | .expander continuation params body =>
      return (.expander (.ofUser (← userExpanderOf continuation params body b)), c)
  | .quote form _ => return (form, c)
  | .vector items => return (.vector (← m.computeAll items c b), c)
  | .list items => return (.listOf (← m.computeAll items c b), c)
  | .hashMap items =>
      let values ← m.computeAll items c b
      match mapOfItems? (← Run.arrangementFor (values.length / 2)) values with
      | some v => return (v, c)
      | none => Run.fail (.call .oddHashMap)
  | .set items =>
      let values ← m.computeAll items c b
      return (.setOf (← Run.arrangementFor values.length) values, c)
  | .invoke target member args =>
      let target ← m.compute target c b
      let values ← Run.holding [target] (m.computeAll args c b)
      return (← Run.askHost (·.invoke target member.name values), c)
  | .invokeStatic type member args =>
      let values ← m.computeAll args c b
      return (← Run.askHost (·.invokeStatic type member.name values), c)
  | .cast type expr =>
      let v ← m.compute expr c b
      return (← Run.ofExcept ((← get).host.cast type v), c)
  | .instanceOf type expr =>
      match ← m.compute type c b with
      | .type name =>
          let v ← m.compute expr c b
          return (.truth ((← get).host.isInstance name v), c)
      | other => Run.fail (.wrongType "type" other)

end IncrementalLisp.Machine
