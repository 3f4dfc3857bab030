import IncrementalLisp.Expansion.Basic

/-! The special forms for definitions, functions, sequences, conditionals and bindings.
-/

namespace IncrementalLisp.Machine

variable (m : Machine)

/-- The definition (def name expr). -/
def expandDefine (c : ContextId) (form : Value) (items : List Value) (k : Expander)
    : Run Node := do
  match items with
  | [_, name, expr] =>
      let s ← m.nameIn c name k .definition
      return .of (.define s (← m.expand k c expr k))
  | _ => Run.fail (.expansion .define form)

/-- The definition (defn name params body…), which stands for (def name (fn params body…)). -/
def expandDefineFunction (c : ContextId) (form : Value) (items : List Value) (k : Expander)
    : Run Node := do
  match items with
  | _ :: name :: params :: body =>
      let function := headedBy .function form.location? (params :: body)
      m.expand k c (headedBy .define form.location? [name, function]) k
  | _ => Run.fail (.expansion .defineFunction form)

/-- The function literal (fn params body…). -/
def expandFunction (c : ContextId) (form : Value) (items : List Value) (k : Expander)
    : Run Node := do
  match items with
  | _ :: params :: body =>
      let (params, rest) ← m.paramsOf c params k
      return .of (.lambda params rest (sequenceOfBody (← m.expandAll c body k)))
  | _ => Run.fail (.expansion .function form)

/-- The conditional (if test then else?). -/
def expandConditional (c : ContextId) (form : Value) (items : List Value) (k : Expander)
    : Run Node := do
  match items with
  | _ :: test :: yes :: rest =>
      if rest.length > 1 then Run.fail (.expansion .conditional form)
      else
        let test ← m.expand k c test k
        let yes ← Run.holding [.node test] (m.expand k c yes k)
        let no ← match rest with
          | no :: _ => Run.holding [.node test, .node yes] (m.expand k c no k)
          | [] => pure (.constant .nil)
        return .of (.conditional test yes no)
  | _ => Run.fail (.expansion .conditional form)

/-- The binding of a name to an expression. -/
def expandPair (c : ContextId) (k : Expander) (pair : Value × Value)
    : Run (Symbol × Node) := do
  let s ← m.nameIn c pair.1 k .binding
  return (s, ← m.expand k c pair.2 k)

/-- The bindings in a list of alternating names and expressions. -/
def expandPairs (c : ContextId) (pairs : List (Value × Value)) (k : Expander)
    : Run (List (Symbol × Node)) :=
  Run.gather (.node ·.2) (m.expandPair c k) pairs

/-- The bindings (let [name expr …] body…). -/
def expandBinding (c : ContextId) (form : Value) (items : List Value) (k : Expander)
    : Run Node := do
  match items with
  | _ :: .vector pairs :: body =>
      if pairs.length % 2 != 0 then Run.fail (.expansion .oddBindings form)
      else
        let pairs ← m.expandPairs c (Value.pairs pairs) k
        let body ← Run.holding (pairs.map (.node ·.2)) (m.expandAll c body k)
        return .of (.binding pairs (sequenceOfBody body))
  | _ :: other :: _ => Run.fail (.analysis .bindingsNotAVector other)
  | _ => Run.fail (.expansion .binding form)

end IncrementalLisp.Machine
