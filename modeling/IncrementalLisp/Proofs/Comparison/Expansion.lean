import IncrementalLisp.Proofs.Comparison.Machine
import IncrementalLisp.Session.Prelude

/-! Everything the expanders do compares as the activities of their machines do. -/

namespace IncrementalLisp

namespace Machine

open Run

variable {C : Comparison} {m m' : Machine} [Machine.Compared C m m']

-----------------------------------------------------------------------------------------
-- Special forms
-----------------------------------------------------------------------------------------

section SpecialForms

variable (c : ContextId) (form : Value) (items : List Value) (k : Expander)

instance compared_expandDefine
    : Run.Compared C (m.expandDefine c form items k) (m'.expandDefine c form items k) := by
  unfold expandDefine
  split <;> infer_instance

instance compared_expandDefineFunction
    : Run.Compared C (m.expandDefineFunction c form items k)
        (m'.expandDefineFunction c form items k) := by
  unfold expandDefineFunction
  split <;> infer_instance

instance compared_expandFunction
    : Run.Compared C (m.expandFunction c form items k) (m'.expandFunction c form items k) := by
  unfold expandFunction
  split <;> infer_instance

instance compared_expandConditional
    : Run.Compared C (m.expandConditional c form items k)
      (m'.expandConditional c form items k) := by
  unfold expandConditional
  split
  · split
    · infer_instance
    · apply Run.Compared.andThen
      intro test
      apply Run.Compared.andThen
      intro yes
      split <;> infer_instance
  · infer_instance

instance compared_expandPair (pair : Value × Value)
    : Run.Compared C (m.expandPair c k pair) (m'.expandPair c k pair) := by
  unfold expandPair
  infer_instance

instance compared_expandPairs (pairs : List (Value × Value))
    : Run.Compared C (m.expandPairs c pairs k) (m'.expandPairs c pairs k) := by
  unfold expandPairs
  infer_instance

instance compared_expandBinding
    : Run.Compared C (m.expandBinding c form items k) (m'.expandBinding c form items k) := by
  unfold expandBinding
  split <;> infer_instance

omit [Machine.Compared C m m'] in
mutual

/-- Substitution for unquoted forms compares if the machines do. Witness: induction on the form. -/
theorem compared_substituted [Machine.Compared C m m']
    : ∀ form : Value, Run.Compared C (m.substituted c k form) (m'.substituted c k form)
  | .list items source => by
      unfold substituted
      have parts := compared_substitutedAll items
      split <;> infer_instance
  | .vector items => by
      unfold substituted
      have parts := compared_substitutedAll items
      infer_instance
  | .set items => by
      unfold substituted
      have parts := compared_substitutedAll items
      infer_instance
  | .map entries => by
      unfold substituted
      have parts := compared_substitutedEntries entries
      infer_instance
  | .nil | .bool _ | .int _ | .float _ | .char _ | .string _ | .symbol _ | .keyword _
  | .function _ | .expander _ | .node _ | .type _ => by
      unfold substituted
      infer_instance
termination_by structural form => form

/-- So does substitution in several forms, by the first and the others. -/
theorem compared_substitutedAll [Machine.Compared C m m']
    : ∀ forms : List Value, Run.Compared C (m.substitutedAll c k forms)
      (m'.substitutedAll c k forms)
  | [] => by
      unfold substitutedAll
      infer_instance
  | form :: rest => by
      unfold substitutedAll
      have first := compared_substituted form
      have others := compared_substitutedAll rest
      infer_instance
termination_by structural forms => forms

/-- So does substitution in the keys and values of entries, by the first entry and the others. -/
theorem compared_substitutedEntries [Machine.Compared C m m']
    : ∀ entries : List (Value × Value),
        Run.Compared C (m.substitutedEntries c k entries)
          (m'.substitutedEntries c k entries)
  | [] => by
      unfold substitutedEntries
      infer_instance
  | (key, value) :: rest => by
      unfold substitutedEntries
      have keyed := compared_substituted key
      have valued := compared_substituted value
      have others := compared_substitutedEntries rest
      infer_instance
termination_by structural entries => entries

end

instance compared_expandQuote (isSyntax : Bool)
    : Run.Compared C (m.expandQuote isSyntax c form items k)
        (m'.expandQuote isSyntax c form items k) := by
  have filled (quoted : Value) :
      Run.Compared C (m.substituted c k quoted)
        (m'.substituted c k quoted) :=
    compared_substituted c k quoted
  unfold expandQuote
  split <;> infer_instance

instance compared_expandUnquote
    : Run.Compared C (m.expandUnquote c form items k) (m'.expandUnquote c form items k) := by
  unfold expandUnquote
  split <;> infer_instance

instance compared_expandMacroLiteral
    : Run.Compared C (m.expandMacroLiteral c form items k)
        (m'.expandMacroLiteral c form items k) := by
  unfold expandMacroLiteral
  split
  · split
    · infer_instance
    · apply Run.Compared.andThen
      intro (params, rest)
      apply Run.Compared.andThen
      intro body
      apply Run.Compared.andThen
      intro v
      split <;> infer_instance
  · infer_instance

instance compared_expandDefineMacro
    : Run.Compared C (m.expandDefineMacro c form items k)
      (m'.expandDefineMacro c form items k) := by
  unfold expandDefineMacro
  split <;> infer_instance

instance compared_expandExpanderLiteral
    : Run.Compared C (m.expandExpanderLiteral c form items k)
        (m'.expandExpanderLiteral c form items k) := by
  unfold expandExpanderLiteral
  split <;> infer_instance

instance compared_expandTarget (target : Value) (name : Symbol) (args : List Node)
    : Run.Compared C (m.expandTarget c target name args k)
        (m'.expandTarget c target name args k) := by
  unfold expandTarget
  apply Run.Compared.andThen
  intro type?
  split <;> infer_instance

instance compared_expandMemberCall (target : Value) (call : List Value)
    : Run.Compared C (m.expandMemberCall c form target call k)
        (m'.expandMemberCall c form target call k) := by
  unfold expandMemberCall
  split <;> infer_instance

instance compared_expandMember
    : Run.Compared C (m.expandMember c form items k) (m'.expandMember c form items k) := by
  unfold expandMember
  split <;> infer_instance

instance compared_expandCast
    : Run.Compared C (m.expandCast c form items k) (m'.expandCast c form items k) := by
  unfold expandCast
  split
  · apply Run.Compared.andThen
    intro type?
    split
    · infer_instance
    · apply Run.Compared.andThen
      intro v
      split <;> infer_instance
  · infer_instance

instance compared_expandInstanceOf
    : Run.Compared C (m.expandInstanceOf c form items k) (m'.expandInstanceOf c form items k) := by
  unfold expandInstanceOf
  split
  · apply Run.Compared.andThen
    intro type?
    split <;> infer_instance
  · infer_instance

instance compared_expandHashMap
    : Run.Compared C (m.expandHashMap c form items k) (m'.expandHashMap c form items k) := by
  unfold expandHashMap
  infer_instance

instance compared_expandSpecialList (f : SpecialForm)
    : Run.Compared C (m.expandSpecialList f c form items k)
        (m'.expandSpecialList f c form items k) := by
  unfold expandSpecialList
  split <;> infer_instance

end SpecialForms

instance compared_expandSpecial (f : SpecialForm) (c : ContextId) (form : Value) (k : Expander)
    : Run.Compared C (m.expandSpecial f c form k) (m'.expandSpecial f c form k) := by
  unfold expandSpecial
  split <;> infer_instance

-----------------------------------------------------------------------------------------
-- Expanders
-----------------------------------------------------------------------------------------

instance compared_finish (c : ContextId) (result : Value) (k : Expander)
    : Run.Compared C (m.finish c result k) (m'.finish c result k) := by
  unfold finish
  split <;> infer_instance

instance compared_expandUser (u : UserExpander) (c : ContextId) (form : Value) (k : Expander)
    : Run.Compared C (m.expandUser u c form k) (m'.expandUser u c form k) := by
  unfold expandUser
  split <;> infer_instance

instance compared_expandMacro (f : Macro) (c : ContextId) (form : Value) (k : Expander)
    : Run.Compared C (m.expandMacro f c form k) (m'.expandMacro f c form k) := by
  unfold expandMacro
  split <;> infer_instance

instance compared_expanderBound? (c : ContextId) (s : Symbol)
    : Run.Compared C (m.expanderBound? c s) (m'.expanderBound? c s) := by
  unfold expanderBound?
  refine compared_slot?_bind fun slot scope st found => ?_
  refine C.bind (Compared.force found) fun v middle _ => ?_
  split <;> exact Run.Compared.compared scope middle

instance compared_expandCall (c : ContextId) (head : Value) (args : List Value)
    (source : Option Location) (k : Expander)
    : Run.Compared C (m.expandCall c head args source k) (m'.expandCall c head args source k) := by
  unfold expandCall
  infer_instance

instance compared_expandList (c : ContextId) (form : Value) (items : List Value)
    (source : Option Location) (k : Expander)
    : Run.Compared C (m.expandList c form items source k)
      (m'.expandList c form items source k) := by
  unfold expandList
  split
  · infer_instance
  · apply Run.Compared.andThen
    intro bound
    split
    · infer_instance
    · split <;> infer_instance
  · infer_instance

instance compared_expandInitial (c : ContextId) (form : Value) (k : Expander)
    : Run.Compared C (m.expandInitial c form k) (m'.expandInitial c form k) := by
  unfold expandInitial
  split <;> infer_instance

instance compared_expandForm (e : Expander) (c : ContextId) (form : Value) (k : Expander)
    : Run.Compared C (m.expandForm e c form k) (m'.expandForm e c form k) := by
  unfold expandForm
  split <;> infer_instance

-----------------------------------------------------------------------------------------
-- Whole texts
-----------------------------------------------------------------------------------------

instance compared_expandTop (config : Config) (form : Value) (c : ContextId)
    : Run.Compared C (m.expandTop config form c) (m'.expandTop config form c) := by
  unfold expandTop
  infer_instance

instance compared_runForm (config : Config) (form : Value) (c : ContextId)
    : Run.Compared C (m.runForm config form c) (m'.runForm config form c) := by
  unfold runForm
  infer_instance

instance compared_runForms (config : Config) (forms : List Value) (last : Value) (c : ContextId)
    : Run.Compared C (m.runForms config forms last c) (m'.runForms config forms last c) := by
  induction forms generalizing last c with
  | nil =>
      unfold runForms
      infer_instance
  | cons form rest ih =>
      unfold runForms
      infer_instance

instance compared_run (config : Config) (reading : Reading) (c : ContextId)
    : Run.Compared C (m.run config reading c) (m'.run config reading c) := by
  unfold run
  split <;> infer_instance

-----------------------------------------------------------------------------------------
-- The prelude
-----------------------------------------------------------------------------------------

instance compared_loadForms (forms : List Value) (last : Value) (c : ContextId)
    : Run.Compared C (m.loadForms forms last c) (m'.loadForms forms last c) := by
  induction forms generalizing last c with
  | nil =>
      unfold loadForms
      infer_instance
  | cons form rest ih =>
      unfold loadForms
      infer_instance

instance compared_load (reading : Reading) (c : ContextId)
    : Run.Compared C (m.load reading c) (m'.load reading c) := by
  unfold load
  split <;> infer_instance

instance compared_defineConstants (entries : List (Symbol × Value)) (c : ContextId)
    : Run.Compared C (m.defineConstants entries c) (m'.defineConstants entries c) := by
  induction entries generalizing c with
  | nil =>
      unfold defineConstants
      infer_instance
  | cons entry rest ih =>
      unfold defineConstants
      infer_instance

instance compared_bootstrap (c : ContextId)
    : Run.Compared C (m.bootstrap c) (m'.bootstrap c) := by
  unfold bootstrap
  infer_instance

instance compared_corePrelude (c : ContextId)
    : Run.Compared C (m.corePrelude c) (m'.corePrelude c) := by
  unfold corePrelude
  infer_instance

end Machine
end IncrementalLisp
