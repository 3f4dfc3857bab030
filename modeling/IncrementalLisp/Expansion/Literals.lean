import IncrementalLisp.Expansion.Basic

/-! The special forms that make macros and expanders.
-/

namespace IncrementalLisp.Machine

variable (m : Machine)

/-- The macro literal (macro params body…), whose function is made at the time of the expansion.
-/
def expandMacroLiteral (c : ContextId) (form : Value) (items : List Value) (k : Expander)
    : Run Node := do
  match items with
  | _ :: params :: body =>
      if body.isEmpty then Run.fail (.expansion .macroLiteral form)
      else
        let (params, rest) ← m.paramsOf c params k
        let body ← m.expandAll c body k
        match ← m.compute (.of (.lambda params rest (sequenceOfBody body))) c [] with
        | .function f =>
            return .constant (.expander (.ofMacro ⟨← Run.newIdentity, f⟩))
        | other => Run.fail (.wrongType "function" other)
  | _ => Run.fail (.expansion .macroLiteral form)

/-- The definition (defmacro name params body…), which stands for
(def name (macro params body…)).
-/
def expandDefineMacro (c : ContextId) (form : Value) (items : List Value) (k : Expander)
    : Run Node := do
  match items with
  | _ :: name :: params :: first :: body =>
      let literal := headedBy .macroLiteral form.location? (params :: first :: body)
      m.expand k c (headedBy .define form.location? [name, literal]) k
  | _ => Run.fail (.expansion .defineMacro form)

/-- The expander literal (expander [continuation params] body…). -/
def expandExpanderLiteral (c : ContextId) (form : Value) (items : List Value) (k : Expander)
    : Run Node := do
  match items with
  | _ :: .vector [continuation, params] :: body =>
      let continuation ← m.nameIn c continuation k .continuation
      let (names, rest) ← m.paramsOf c params k
      if rest.isSome then Run.fail (.analysis .expanderRest params)
      else
        let body ← m.expandAll c body k
        return .of (.expander continuation names (sequenceOfBody body))
  | _ :: other :: _ => Run.fail (.analysis .expanderHeader other)
  | _ => Run.fail (.expansion .expanderLiteral form)

end IncrementalLisp.Machine
