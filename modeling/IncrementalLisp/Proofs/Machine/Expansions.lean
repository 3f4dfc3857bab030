import IncrementalLisp.Proofs.Machine.Activities

/-! Everything the expanders do keeps a course that the activities of their machine keep. -/

namespace IncrementalLisp

namespace Machine

open Run

variable {P : Store → Store → Prop} [Course P] {m : Machine} [m.Follows P]

-----------------------------------------------------------------------------------------
-- Parts of forms
-----------------------------------------------------------------------------------------

instance follows_expandAll (c : ContextId) (forms : List Value) (k : Expander)
    : Run.Follows P (m.expandAll c forms k) := by
  unfold expandAll
  infer_instance

instance follows_expandEntries (c : ContextId) (entries : List (Value × Value)) (k : Expander)
    : Run.Follows P (m.expandEntries c entries k) := by
  unfold expandEntries
  infer_instance

instance follows_evaluateNow (c : ContextId) (form : Value) (k : Expander)
    : Run.Follows P (m.evaluateNow c form k) := by
  unfold evaluateNow
  infer_instance

instance follows_nameIn (c : ContextId) (form : Value) (k : Expander) (role : NameRole)
    : Run.Follows P (m.nameIn c form k role) := by
  unfold nameIn
  split
  · infer_instance
  · split
    · apply Run.Follows.andThen
      intro v
      split <;> infer_instance
    · infer_instance
  · infer_instance

instance follows_paramsIn (c : ContextId) (vector : Value) (k : Expander) (forms : List Value)
    : Run.Follows P (m.paramsIn c vector k forms) := by
  induction forms with
  | nil =>
      unfold paramsIn
      infer_instance
  | cons item rest ih =>
      unfold paramsIn
      split
      · split <;> infer_instance
      · infer_instance

instance follows_paramsOf (c : ContextId) (form : Value) (k : Expander)
    : Run.Follows P (m.paramsOf c form k) := by
  unfold paramsOf
  split <;> infer_instance

instance follows_typeNamed? (c : ContextId) (form : Value)
    : Run.Follows P (m.typeNamed? c form) := by
  unfold typeNamed?
  split
  · split
    · apply Run.Follows.andThen
      intro found
      split <;> infer_instance
    · infer_instance
  · infer_instance

-----------------------------------------------------------------------------------------
-- Special forms
-----------------------------------------------------------------------------------------

section SpecialForms

variable (c : ContextId) (form : Value) (items : List Value) (k : Expander)

instance follows_expandDefine
    : Run.Follows P (m.expandDefine c form items k) := by
  unfold expandDefine
  split <;> infer_instance

instance follows_expandDefineFunction
    : Run.Follows P (m.expandDefineFunction c form items k) := by
  unfold expandDefineFunction
  split <;> infer_instance

instance follows_expandFunction
    : Run.Follows P (m.expandFunction c form items k) := by
  unfold expandFunction
  split <;> infer_instance

instance follows_expandConditional
    : Run.Follows P (m.expandConditional c form items k) := by
  unfold expandConditional
  split
  · split
    · infer_instance
    · apply Run.Follows.andThen
      intro test
      apply Run.Follows.andThen
      intro yes
      split <;> infer_instance
  · infer_instance

instance follows_expandPair (pair : Value × Value)
    : Run.Follows P (m.expandPair c k pair) := by
  unfold expandPair
  infer_instance

instance follows_expandPairs (pairs : List (Value × Value))
    : Run.Follows P (m.expandPairs c pairs k) := by
  unfold expandPairs
  infer_instance

instance follows_expandBinding
    : Run.Follows P (m.expandBinding c form items k) := by
  unfold expandBinding
  split <;> infer_instance

omit [m.Follows P] in
mutual

/-- Substitution for unquoted forms follows a course if the machine does. Witness: induction on the
form.
-/
theorem follows_substituted [m.Follows P]
    : ∀ form : Value, Run.Follows P (m.substituted c k form)
  | .list items source => by
      unfold substituted
      have parts := follows_substitutedAll items
      split <;> infer_instance
  | .vector items => by
      unfold substituted
      have parts := follows_substitutedAll items
      infer_instance
  | .set items => by
      unfold substituted
      have parts := follows_substitutedAll items
      infer_instance
  | .map entries => by
      unfold substituted
      have parts := follows_substitutedEntries entries
      infer_instance
  | .nil | .bool _ | .int _ | .float _ | .char _ | .string _ | .symbol _ | .keyword _
  | .function _ | .expander _ | .node _ | .type _ => by
      unfold substituted
      infer_instance
termination_by structural form => form

/-- So does substitution in several forms, by the first and the others. -/
theorem follows_substitutedAll [m.Follows P]
    : ∀ forms : List Value, Run.Follows P (m.substitutedAll c k forms)
  | [] => by
      unfold substitutedAll
      infer_instance
  | form :: rest => by
      unfold substitutedAll
      have first := follows_substituted form
      have others := follows_substitutedAll rest
      infer_instance
termination_by structural forms => forms

/-- So does substitution in the keys and values of entries. -/
theorem follows_substitutedEntries [m.Follows P]
    : ∀ entries : List (Value × Value), Run.Follows P (m.substitutedEntries c k entries)
  | [] => by
      unfold substitutedEntries
      infer_instance
  | (key, value) :: rest => by
      unfold substitutedEntries
      have keyed := follows_substituted key
      have valued := follows_substituted value
      have others := follows_substitutedEntries rest
      infer_instance
termination_by structural entries => entries

end

attribute [instance] follows_substituted follows_substitutedAll follows_substitutedEntries

instance follows_expandQuote (isSyntax : Bool)
    : Run.Follows P (m.expandQuote isSyntax c form items k) := by
  unfold expandQuote
  split <;> infer_instance

instance follows_expandUnquote
    : Run.Follows P (m.expandUnquote c form items k) := by
  unfold expandUnquote
  split <;> infer_instance

instance follows_expandMacroLiteral
    : Run.Follows P (m.expandMacroLiteral c form items k) := by
  unfold expandMacroLiteral
  split
  · split
    · infer_instance
    · apply Run.Follows.andThen
      intro (params, rest)
      apply Run.Follows.andThen
      intro body
      apply Run.Follows.andThen
      intro v
      split <;> infer_instance
  · infer_instance

instance follows_expandDefineMacro
    : Run.Follows P (m.expandDefineMacro c form items k) := by
  unfold expandDefineMacro
  split <;> infer_instance

instance follows_expandExpanderLiteral
    : Run.Follows P (m.expandExpanderLiteral c form items k) := by
  unfold expandExpanderLiteral
  split <;> infer_instance

instance follows_expandTarget (target : Value) (name : Symbol) (args : List Node)
    : Run.Follows P (m.expandTarget c target name args k) := by
  unfold expandTarget
  apply Run.Follows.andThen
  intro type?
  split <;> infer_instance

instance follows_expandMemberCall (target : Value) (call : List Value)
    : Run.Follows P (m.expandMemberCall c form target call k) := by
  unfold expandMemberCall
  split <;> infer_instance

instance follows_expandMember
    : Run.Follows P (m.expandMember c form items k) := by
  unfold expandMember
  split <;> infer_instance

instance follows_expandCast
    : Run.Follows P (m.expandCast c form items k) := by
  unfold expandCast
  split
  · apply Run.Follows.andThen
    intro type?
    split
    · infer_instance
    · apply Run.Follows.andThen
      intro v
      split <;> infer_instance
  · infer_instance

instance follows_expandInstanceOf
    : Run.Follows P (m.expandInstanceOf c form items k) := by
  unfold expandInstanceOf
  split
  · apply Run.Follows.andThen
    intro type?
    split <;> infer_instance
  · infer_instance

instance follows_expandHashMap
    : Run.Follows P (m.expandHashMap c form items k) := by
  unfold expandHashMap
  infer_instance

instance follows_expandEnterSpace
    : Run.Follows P (expandEnterSpace form items) := by
  unfold expandEnterSpace
  split
  · split <;> infer_instance
  · infer_instance

instance follows_expandSpecialList (f : SpecialForm)
    : Run.Follows P (m.expandSpecialList f c form items k) := by
  unfold expandSpecialList
  split <;> infer_instance

end SpecialForms

instance follows_expandSpecial (f : SpecialForm) (c : ContextId) (form : Value) (k : Expander)
    : Run.Follows P (m.expandSpecial f c form k) := by
  unfold expandSpecial
  split <;> infer_instance

-----------------------------------------------------------------------------------------
-- Expanders
-----------------------------------------------------------------------------------------

instance follows_finish (c : ContextId) (result : Value) (k : Expander)
    : Run.Follows P (m.finish c result k) := by
  unfold finish
  split <;> infer_instance

instance follows_expandUser (u : UserExpander) (c : ContextId) (form : Value) (k : Expander)
    : Run.Follows P (m.expandUser u c form k) := by
  unfold expandUser
  split <;> infer_instance

instance follows_expandMacro (f : Macro) (c : ContextId) (form : Value) (k : Expander)
    : Run.Follows P (m.expandMacro f c form k) := by
  unfold expandMacro
  split <;> infer_instance

instance follows_expanderBound? (c : ContextId) (s : Symbol)
    : Run.Follows P (m.expanderBound? c s) := by
  unfold expanderBound?
  apply follows_slot?_bind
  intro slot scope st held
  apply follows_bind (Machine.Follows.force held)
  intro v middle _
  split <;> exact Course.refl

instance follows_continuationFor (e : Expander) (form : Value) (k : Expander)
    : Run.Follows P (continuationFor e form k) := by
  unfold continuationFor
  split <;> infer_instance

instance follows_expandCall (c : ContextId) (head : Value) (args : List Value)
    (source : Option Location) (k : Expander)
    : Run.Follows P (m.expandCall c head args source k) := by
  unfold expandCall
  infer_instance

instance follows_expandList (c : ContextId) (form : Value) (items : List Value)
    (source : Option Location) (k : Expander)
    : Run.Follows P (m.expandList c form items source k) := by
  unfold expandList
  split
  · infer_instance
  · apply Run.Follows.andThen
    intro bound
    split
    · infer_instance
    · split <;> infer_instance
  · infer_instance

instance follows_expandInitial (c : ContextId) (form : Value) (k : Expander)
    : Run.Follows P (m.expandInitial c form k) := by
  unfold expandInitial
  split <;> infer_instance

instance follows_expandForm (e : Expander) (c : ContextId) (form : Value) (k : Expander)
    : Run.Follows P (m.expandForm e c form k) := by
  unfold expandForm
  split <;> infer_instance

end Machine
end IncrementalLisp
