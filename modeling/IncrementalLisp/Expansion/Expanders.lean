import IncrementalLisp.Expansion.Forms

/-! Expanders. The initial expander hands a list to the expander that its head symbol is bound
to, and reads any other list as a call. User expanders and macros compute a node, which is
final, or a form, which is expanded further. The number of such expansions inside one another
is bounded by the count that the initial expander carries.
-/

namespace IncrementalLisp

/-- The expander for the parts of a form that a user expander or a macro expands. -/
def Expander.descended (k : Expander) (form : Value)
    : Except EvalError Expander :=
  match k with
  | .initial 0 => .error (.expansion .tooDeep form)
  | .initial (n + 1) => .ok (.initial n)
  | other => .ok other

/-- The bindings under which the body of a user expander sees its continuation and arguments. -/
def UserExpander.frame (u : UserExpander) (k : Expander) (args : List Value)
    : Bindings :=
  (u.params.zip args).foldl (fun b (s, v) => Bindings.insert b s v)
    (Bindings.insert u.captured u.continuation (.expander k))

/-- The name of the member that a head symbol beginning with a dot calls. -/
def memberCalled? (s : Symbol)
    : Option String :=
  match s.isQualified, s.name.toList with
  | false, '.' :: c :: rest => some (String.ofList (c :: rest))
  | _, _ => none

namespace Machine

variable (m : Machine)

/-- The node of what a user expander or a macro computed. -/
def finish (c : ContextId) (result : Value) (k : Expander)
    : Run Node :=
  match result with
  | .node n => pure n
  | form => m.expand k c form k

/-- The node of a form that a user expander expands. -/
def expandUser (u : UserExpander) (c : ContextId) (form : Value) (k : Expander)
    : Run Node := do
  match form with
  | .list items _ =>
      if items.length != u.params.length + 1 then
        Run.fail (.arity "expander" (.exactly u.params.length) (items.length - 1))
      else
        m.finish c (← m.compute u.body c (u.frame k items.tail)) k
  | _ => Run.fail (.expansion .expanderNotAList form)

/-- The node of a form that a macro expands. -/
def expandMacro (f : Macro) (c : ContextId) (form : Value) (k : Expander)
    : Run Node := do
  match form with
  | .list items _ => m.finish c (← m.call (.function f.function) items.tail c) k
  | _ => Run.fail (.expansion .macroNotAList form)

/-- The expander that a symbol at the head of a list is bound to. -/
def expanderBound? (c : ContextId) (s : Symbol)
    : Run (Option Expander) := do
  match ← m.slot? c s with
  | none => return none
  | some slot =>
      match ← m.force slot c with
      | .expander e => return some e
      | _ => return none

/-- The expander for the parts of a list whose head is bound to an expander. -/
def continuationFor (e : Expander) (form : Value) (k : Expander)
    : Run Expander :=
  match e with
  | .form _ => pure k
  | _ => Run.ofExcept (k.descended form)

/-- The call (.member target args…) as (. target (member args…)). -/
def memberCall (name : String) (form : Value) (items : List Value) (source : Option Location)
    : Except EvalError Value :=
  match items with
  | _ :: target :: args =>
      let call := Value.listOf (.symbol (Symbol.bare name) :: args)
      .ok (headedBy .member source [target, call])
  | _ => .error (.expansion (.noTarget name) form)

/-- The node of a list that is a call. -/
def expandCall (c : ContextId) (head : Value) (args : List Value) (source : Option Location)
    (k : Expander)
    : Run Node := do
  let f ← m.expand k c head k
  let args ← Run.holding [.node f] (m.expandAll c args k)
  return (Node.of (.apply f args)).locatedAt source

/-- The node of a list. -/
def expandList (c : ContextId) (form : Value) (items : List Value) (source : Option Location)
    (k : Expander)
    : Run Node := do
  match items with
  | [] => return .constant form
  | .symbol s :: args =>
      match ← m.expanderBound? c s with
      | some e =>
          let k ← continuationFor e form k
          return (← m.expand e c form k).including s
      | none =>
          match memberCalled? s with
          | some name => m.expand k c (← Run.ofExcept (memberCall name form items source)) k
          | none => m.expandCall c (.symbol s) args source k
  | head :: args => m.expandCall c head args source k

/-- The node of a form that the initial expander expands. -/
def expandInitial (c : ContextId) (form : Value) (k : Expander)
    : Run Node := do
  match form with
  | .list items source => m.expandList c form items source k
  | .vector items => return .of (.vector (← m.expandAll c items k))
  | .map entries => return .of (.hashMap (← m.expandEntries c entries k))
  | .set items => return .of (.set (← m.expandAll c items k))
  | .symbol s => return .lookup s
  | .node n => return n
  | other => return .constant other

/-- The node of a form. -/
def expandForm (e : Expander) (c : ContextId) (form : Value) (k : Expander)
    : Run Node :=
  match e with
  | .initial _ => m.expandInitial c form k
  | .form f => m.expandSpecial f c form k
  | .ofUser u => m.expandUser u c form k
  | .ofMacro f => m.expandMacro f c form k

end Machine

end IncrementalLisp
