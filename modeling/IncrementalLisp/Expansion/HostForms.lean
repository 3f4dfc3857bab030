import IncrementalLisp.Expansion.Basic

/-! The special forms that reach the host.
-/

namespace IncrementalLisp.Machine

variable (m : Machine)

/-- The member and the arguments of a call, which stand in a list of their own or follow the target.
-/
def memberParts : Value → List Value → List Value
  | .list inner _, [] => inner
  | member, more => member :: more

/-- The node of a call of a member on a target, given the nodes of the arguments. -/
def expandTarget (c : ContextId) (target : Value) (name : Symbol) (args : List Node) (k : Expander)
    : Run Node := do
  match ← m.typeNamed? c target with
  | some type => return .of (.invokeStatic type name args)
  | none => return .of (.invoke (← m.expand k c target k) name args)

/-- The node of a call of a member, which is the first of some forms, on a target. The arguments are
expanded before the target.
-/
def expandMemberCall (c : ContextId) (form target : Value) (parts : List Value) (k : Expander)
    : Run Node := do
  match parts with
  | [] => Run.fail (.expansion .noMemberName form)
  | .symbol name :: args =>
      let args ← m.expandAll c args k
      Run.holding (args.map .node) (m.expandTarget c target name args k)
  | other :: _ => Run.fail (.analysis (.notASymbol .member) other)

/-- The calls (. target member args…) and (. target (member args…)). -/
def expandMember (c : ContextId) (form : Value) (items : List Value) (k : Expander)
    : Run Node :=
  match items with
  | _ :: target :: member :: more => m.expandMemberCall c form target (memberParts member more) k
  | _ => Run.fail (.expansion .member form)

/-- The conversion (cast type expr), where a type that is not named is evaluated at the time of
the expansion.
-/
def expandCast (c : ContextId) (form : Value) (items : List Value) (k : Expander)
    : Run Node := do
  match items with
  | [_, type, expr] =>
      let name ← match ← m.typeNamed? c type with
        | some name => pure name
        | none =>
            match ← m.evaluateNow c type k with
            | .type name => pure name
            | _ => Run.fail (.analysis .notAType type)
      return .of (.cast name (← m.expand k c expr k))
  | _ => Run.fail (.expansion .cast form)

/-- The test (instance? type expr). -/
def expandInstanceOf (c : ContextId) (form : Value) (items : List Value) (k : Expander)
    : Run Node := do
  match items with
  | [_, type, expr] =>
      let type ← match ← m.typeNamed? c type with
        | some name => pure (.constant (.type name))
        | none => m.expand k c type k
      return .of (.instanceOf type (← Run.holding [.node type] (m.expand k c expr k)))
  | _ => Run.fail (.expansion .instanceOf form)

end IncrementalLisp.Machine
