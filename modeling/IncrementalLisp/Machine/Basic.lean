import IncrementalLisp.Machine.Run

/-! The four activities of a run: evaluating nodes, calling values, computing slots and expanding
forms. Each of them needs all the others, so each is defined from a machine, which offers the
four to it, and the machines of every depth are tied together afterwards.
-/

namespace IncrementalLisp

/-- The four activities. -/
structure Machine where
  /-- The value of a node in a context under lexical bindings, and the context after it. -/
  eval : Node → ContextId → Bindings → Run (Value × ContextId)
  /-- The value of a call; an expander is called in a context. -/
  call : Value → List Value → ContextId → Run Value
  /-- The value of a slot that is found in a context. -/
  force : Slot → ContextId → Run Value
  /-- The node of a form in a context; the last expander is for the parts of the form. -/
  expand : Expander → ContextId → Value → Expander → Run Node

namespace Machine

/-- The machine that runs nothing. -/
def exhausted : Machine where
  eval _ _ _ := Run.exhausted
  call _ _ _ := Run.exhausted
  force _ _ := Run.exhausted
  expand _ _ _ _ := Run.exhausted

variable (m : Machine)

/-- The value of a node, whose effect on the context is dropped. -/
def compute (node : Node) (c : ContextId) (b : Bindings)
    : Run Value := do
  return (← m.eval node c b).1

/-- The values of several nodes, from left to right. -/
def computeAll (nodes : List Node) (c : ContextId) (b : Bindings)
    : Run (List Value) :=
  Run.gather id (fun node => m.compute node c b) nodes

/-- The current namespace of a context: the value of its own symbol, if that is a text, and the
core namespace otherwise.
-/
def currentSpace (c : ContextId)
    : Run String := do
  match (← Run.context c).slots[Symbol.currentSpace]? with
  | none => return coreSpace
  | some slot =>
      match ← Run.attempt (m.force slot c) with
      | .ok (.string space) => return space
      | _ => return coreSpace

/-- A symbol in the current namespace of a context, unless it has a namespace. -/
def qualify (c : ContextId) (s : Symbol)
    : Run Symbol := do
  if s.isQualified then return s else return s.qualify (← m.currentSpace c)

/-- The slot that a symbol means in a context. -/
def slot? (c : ContextId) (s : Symbol)
    : Run (Option Slot) := do
  if s.isQualified then return (← Run.context c).slots[s]?
  else
    let space ← m.currentSpace c
    return (← Run.context c).slotIn? space s

/-- The value of a symbol in a context. -/
def valueOf (c : ContextId) (s : Symbol)
    : Run Value := do
  match ← m.slot? c s with
  | some slot => m.force slot c
  | none => Run.fail (.unresolvedSymbol (← m.qualify c s))

/-- The context after a definition. -/
def define (c : ContextId) (s : Symbol) (node : Node) (b : Bindings)
    : Run ContextId := do
  let space ← m.currentSpace c
  modifyGet (·.define c space s node b)

/-- A summary of a context. -/
def describe (c : ContextId)
    : Run String := do
  let space ← m.currentSpace c
  let count := (← Run.context c).slots.size
  return "Context \x7b namespace: " ++ Text.quote space ++ ", symbols: " ++ toString count
    ++ " \x7d"

/-- The slots that depend on a symbol in a context, directly or not. -/
def dependents (c : ContextId) (s : Symbol)
    : Run SymbolSet := do
  let s ← m.qualify c s
  return (← Run.context c).transitiveDependents s

end Machine

end IncrementalLisp
