import IncrementalLisp.Expansion.Basic
import IncrementalLisp.Reader

/-! Analysis of forms by a fixed language: six special forms known by name, and everything else a
call, a reference or a constant. It consults no context, so it can load definitions before any
expander is defined.
-/

namespace IncrementalLisp

/-- The parameters in a vector of symbols, which belongs to the given form. What follows a rest
parameter is ignored.
-/
def analysedParams (form : Value)
    : List Value → Except EvalError (List Symbol × Option Symbol)
  | [] => .ok ([], none)
  | .symbol s :: rest =>
      if s == restMark then
        match rest with
        | .symbol r :: _ => .ok ([], some r)
        | _ => .error (.expansion .noRestSymbol form)
      else (analysedParams form rest).map fun (params, r) => (s :: params, r)
  | other :: _ => .error (.analysis (.notASymbol .parameter) other)

mutual

/-- The node of a form. -/
def analysed : Value → Except EvalError Node
  | .list items source => analysedList (.list items source) source items
  | .vector items => do return .of (.vector (← analysedAll items))
  | .map entries => do return .of (.hashMap (← analysedEntries entries))
  | .set items => do return .of (.set (← analysedAll items))
  | .symbol s => .ok (.lookup s)
  | other => .ok (.constant other)
termination_by structural form => form

/-- The nodes of several forms. -/
def analysedAll : List Value → Except EvalError (List Node)
  | [] => .ok []
  | form :: rest => do
      let n ← analysed form
      return n :: (← analysedAll rest)
termination_by structural forms => forms

/-- The nodes of the keys and values of a map form, one after the other. -/
def analysedEntries : List (Value × Value) → Except EvalError (List Node)
  | [] => .ok []
  | (key, value) :: rest => do
      let k ← analysed key
      let v ← analysed value
      return k :: v :: (← analysedEntries rest)
termination_by structural entries => entries

/-- The node of a list. -/
def analysedList (form : Value) (source : Option Location)
    : List Value → Except EvalError Node
  | [] => .ok (.constant form)
  | head :: rest =>
      match head with
      | .symbol s =>
          if s == SpecialForm.define.symbol then analysedDefine form rest
          else if s == SpecialForm.function.symbol then analysedFunction form rest
          else if s == SpecialForm.quote.symbol then
            match rest with
            | [quoted] => .ok (.of (.quote quoted false))
            | _ => .error (.expansion .quote form)
          else if s == SpecialForm.sequence.symbol then do
            return .of (.sequence (← analysedAll rest))
          else if s == SpecialForm.conditional.symbol then analysedConditional form rest
          else if s == SpecialForm.binding.symbol then analysedBinding form rest
          else do
            return (Node.of (.apply (.lookup s) (← analysedAll rest))).locatedAt source
      | head => do
          let f ← analysed head
          return (Node.of (.apply f (← analysedAll rest))).locatedAt source
termination_by structural items => items

/-- The node of a definition. -/
def analysedDefine (form : Value)
    : List Value → Except EvalError Node
  | [.symbol s, expr] => do return .of (.define s (← analysed expr))
  | [other, _] => .error (.analysis (.notASymbol .definition) other)
  | _ => .error (.expansion .define form)
termination_by structural rest => rest

/-- The node of a function. -/
def analysedFunction (form : Value)
    : List Value → Except EvalError Node
  | .vector params :: body => do
      let (params, rest) ← analysedParams form params
      return .of (.lambda params rest (.of (.sequence (← analysedAll body))))
  | other :: _ => .error (.analysis .parametersNotAVector other)
  | [] => .error (.expansion .function form)
termination_by structural rest => rest

/-- The node of a conditional. -/
def analysedConditional (form : Value)
    : List Value → Except EvalError Node
  | [test, yes] => do
      let test ← analysed test
      return .of (.conditional test (← analysed yes) (.constant .nil))
  | [test, yes, no] => do
      let test ← analysed test
      let yes ← analysed yes
      return .of (.conditional test yes (← analysed no))
  | _ => .error (.expansion .conditional form)
termination_by structural rest => rest

/-- The node of a list of bindings around a body. -/
def analysedBinding (form : Value)
    : List Value → Except EvalError Node
  | .vector pairs :: body =>
      if pairs.length % 2 != 0 then .error (.expansion .oddBindings form)
      else do
        let pairs ← analysedPairs pairs
        return .of (.binding pairs (.of (.sequence (← analysedAll body))))
  | other :: _ => .error (.analysis .bindingsNotAVector other)
  | [] => .error (.expansion .binding form)
termination_by structural rest => rest

/-- The bindings in a list of alternating names and expressions. -/
def analysedPairs : List Value → Except EvalError (List (Symbol × Node))
  | .symbol s :: expr :: rest => do
      let n ← analysed expr
      return (s, n) :: (← analysedPairs rest)
  | other :: _ :: _ => .error (.analysis (.notASymbol .binding) other)
  | _ => .ok []
termination_by structural pairs => pairs

end

namespace Machine

variable (m : Machine)

/-- Evaluates forms in order, analysed by the fixed language, each in the context that the one
before it left. The value of the one before it is at hand until its own is there.
-/
def loadForms : List Value → Value → ContextId → Run (Value × ContextId)
  | [], last, c => return (last, c)
  | form :: rest, last, c => do
      let node ← Run.ofExcept (analysed form)
      let (v, c) ← Run.holding [last] (m.eval node c [])
      loadForms rest v c

/-- Evaluates what was read, up to its fault if there is one. -/
def load (reading : Reading) (c : ContextId)
    : Run (Value × ContextId) := do
  let result ← m.loadForms reading.forms .nil c
  match reading.error with
  | none => return result
  | some e => Run.fail (.reading e)

end Machine

end IncrementalLisp
