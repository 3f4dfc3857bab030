import IncrementalLisp.Machine.Call
import IncrementalLisp.Text.Letter

/-! What all expansions share: expanding several forms, evaluating a form while expanding, and
the forms that name something.
-/

namespace IncrementalLisp

/-- The bare symbol of a special form. -/
def SpecialForm.symbol (f : SpecialForm)
    : Symbol :=
  Symbol.bare f.name

/-- The symbol before a rest parameter. -/
def restMark : Symbol := Symbol.bare "&"

/-- The form whose value an unquoting list stands for. -/
def unquoted? : List Value → Option Value
  | [.symbol s, form] => if s == SpecialForm.unquote.symbol then some form else none
  | _ => none

/-- A list headed by a special form, at the place of the form it stands for. -/
def headedBy (f : SpecialForm) (source : Option Location) (items : List Value)
    : Value :=
  .list (.symbol f.symbol :: items) source

/-- Several nodes as one. -/
def sequenceOfBody : List Node → Node
  | [only] => only
  | body => .of (.sequence body)

/-- Whether a name could be that of a host type: its last dotted part starts with a capital. -/
def namesType (name : String)
    : Bool :=
  match (name.toList.reverse.takeWhile (· != '.')).reverse with
  | [] => false
  | c :: _ => Text.isCapital c

namespace Machine

variable (m : Machine)

/-- The nodes of several forms, from left to right. -/
def expandAll (c : ContextId) (forms : List Value) (k : Expander)
    : Run (List Node) :=
  Run.gather .node (fun form => m.expand k c form k) forms

/-- The nodes of the keys and values of a map form, one after the other. -/
def expandEntries (c : ContextId) (entries : List (Value × Value)) (k : Expander)
    : Run (List Node) :=
  m.expandAll c (entries.flatMap fun (key, v) => [key, v]) k

/-- The value of a form at the time of its expansion. -/
def evaluateNow (c : ContextId) (form : Value) (k : Expander)
    : Run Value := do
  m.compute (← m.expand k c form k) c []

/-- A form in a place that takes a symbol: a symbol, or an unquoted form whose value is one. -/
def nameIn (c : ContextId) (form : Value) (k : Expander) (role : NameRole)
    : Run Symbol := do
  match form with
  | .symbol s => return s
  | .list items _ =>
      match unquoted? items with
      | some inner =>
          match ← m.evaluateNow c inner k with
          | .symbol s => return s
          | other => Run.fail (.analysis (.valueNotASymbol role other) form)
      | none => Run.fail (.analysis (.notASymbol role) form)
  | _ => Run.fail (.analysis (.notASymbol role) form)

/-- The parameters in a list of forms, which belong to the given vector. -/
def paramsIn (c : ContextId) (vector : Value) (k : Expander)
    : List Value → Run (List Symbol × Option Symbol)
  | [] => return ([], none)
  | item :: rest => do
      if item == .symbol restMark then
        match rest with
        | [] => Run.fail (.expansion .noRestParameter vector)
        | name :: more =>
            let r ← m.nameIn c name k .restParameter
            if more.isEmpty then return ([], some r)
            else Run.fail (.expansion .manyRestParameters vector)
      else
        let s ← m.nameIn c item k .parameter
        let (params, r) ← paramsIn c vector k rest
        return (s :: params, r)

/-- The parameters of a function. -/
def paramsOf (c : ContextId) (form : Value) (k : Expander)
    : Run (List Symbol × Option Symbol) := do
  match form with
  | .vector items => m.paramsIn c form k items
  | other => Run.fail (.analysis .parametersNotAVector other)

/-- The host type that a form names: a bare symbol that could be one and that has no definition
in the context.
-/
def typeNamed? (c : ContextId) (form : Value)
    : Run (Option String) := do
  match form with
  | .symbol s =>
      if !s.isQualified && namesType s.name then
        match ← m.slot? c s with
        | some _ => return none
        | none => return ((← get).host.type? s.name).map (·.name)
      else return none
  | _ => return none

end Machine

end IncrementalLisp
