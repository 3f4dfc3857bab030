import IncrementalLisp.Expansion.Definitions
import IncrementalLisp.Expansion.HostForms
import IncrementalLisp.Expansion.Literals
import IncrementalLisp.Expansion.Quoting

/-! The special forms together. The node of a special form is at the place of its form.
-/

namespace IncrementalLisp.Machine

variable (m : Machine)

/-- The map constructor (hashmap key value …). With its own head the list has an odd number of
items; a list without items, which has no head either, is refused as well.
-/
def expandHashMap (c : ContextId) (form : Value) (items : List Value) (k : Expander)
    : Run Node := do
  if items.length % 2 == 0 then Run.fail (.expansion .oddHashMap form)
  else return .of (.hashMap (← m.expandAll c items.tail k))

/-- The switch of namespace (ns name). -/
def expandEnterSpace (form : Value) (items : List Value)
    : Run Node := do
  match items with
  | [_, name] =>
      match name with
      | .symbol s =>
          if s.isQualified then Run.fail (.analysis (.notASymbol .space) name)
          else return .of (.define Symbol.currentSpace (.constant (.string s.name)))
      | other => Run.fail (.analysis (.notASymbol .space) other)
  | _ => Run.fail (.expansion .enterSpace form)

/-- The node of a list that a special form expands. -/
def expandSpecialList (f : SpecialForm) (c : ContextId) (form : Value) (items : List Value)
    (k : Expander)
    : Run Node := do
  match f with
  | .define => m.expandDefine c form items k
  | .defineFunction => m.expandDefineFunction c form items k
  | .function => m.expandFunction c form items k
  | .sequence => return .of (.sequence (← m.expandAll c items.tail k))
  | .conditional => m.expandConditional c form items k
  | .binding => m.expandBinding c form items k
  | .quote => m.expandQuote false c form items k
  | .syntaxQuote => m.expandQuote true c form items k
  | .unquote => m.expandUnquote c form items k
  | .macroLiteral => m.expandMacroLiteral c form items k
  | .defineMacro => m.expandDefineMacro c form items k
  | .expanderLiteral => m.expandExpanderLiteral c form items k
  | .member => m.expandMember c form items k
  | .cast => m.expandCast c form items k
  | .instanceOf => m.expandInstanceOf c form items k
  | .vector => return .of (.vector (← m.expandAll c items.tail k))
  | .list => return .of (.list (← m.expandAll c items.tail k))
  | .set => return .of (.set (← m.expandAll c items.tail k))
  | .hashMap => m.expandHashMap c form items k
  | .enterSpace => expandEnterSpace form items

/-- The node of a form that a special form expands. -/
def expandSpecial (f : SpecialForm) (c : ContextId) (form : Value) (k : Expander)
    : Run Node := do
  match form with
  | .list items source => return (← m.expandSpecialList f c form items k).locatedAt source
  | _ => Run.fail (.expansion .notAList form)

end IncrementalLisp.Machine
