import IncrementalLisp.Expansion.Expanders
import IncrementalLisp.Proofs.Mirror.Calls

/-! Expansions of forms that differ only by a pass, on machines whose activities are mirrored: they
lead to alike nodes.
-/

namespace IncrementalLisp

-----------------------------------------------------------------------------------------
-- Forms
-----------------------------------------------------------------------------------------

section Forms

variable {M : Likeness} {items items' : List Value} {form form' : Value}

/-- Lists of forms that are alike one by one. -/
abbrev FormsAlike (M : Likeness)
    : List Value → List Value → Prop :=
  List.Forall₂ (Value.Alike M)

/-- Lists that are alike stay so under the head of a special form. -/
theorem headedBy_alike (f : SpecialForm) (source : Option Location)
    (parts : FormsAlike M items items')
    : (headedBy f source items).Alike M (headedBy f source items') :=
  ⟨_, rfl, _, _, rfl, rfl, valuesAlike_iff_forall₂.mpr parts⟩

/-- Lists of forms that are alike are empty together. -/
theorem isEmpty_eq (parts : FormsAlike M items items')
    : items'.isEmpty = items.isEmpty := by
  cases parts <;> rfl

/-- Only a list of two items unquotes a form. -/
theorem unquoted?_of_length (other : items.length ≠ 2)
    : unquoted? items = none := by
  unfold unquoted?
  split
  · exact absurd rfl other
  · rfl

/-- Lists that are alike unquote forms that are, or neither of them unquotes one. -/
theorem unquoted?_alike (parts : FormsAlike M items items')
    : Option.Rel (Value.Alike M) (unquoted? items) (unquoted? items') := by
  have lengths := parts.length_eq
  by_cases two : items.length = 2
  · obtain ⟨v, form, rfl⟩ := List.length_eq_two.mp two
    obtain ⟨w, form', rfl⟩ := List.length_eq_two.mp (lengths ▸ two)
    obtain _ | ⟨head, _ | ⟨inner, _⟩⟩ := parts
    cases v with
    | symbol s =>
        obtain rfl := head
        unfold unquoted?
        dsimp only
        split
        · exact .some inner
        · exact .none
    | list | vector | map | set | function | expander | node =>
        obtain ⟨_, rfl, _⟩ := head
        exact .none
    | _ =>
        obtain rfl := head
        exact .none
  · rw [unquoted?_of_length two, unquoted?_of_length (lengths ▸ two)]
    exact .none

/-- Calls of members that are alike stand for forms that are, or are refused alike. -/
theorem memberCall_alike (name : String) (forms : form.Alike M form')
    (parts : FormsAlike M items items') (source : Option Location)
    : ResultsAlike (EvalError.Alike M) (Value.Alike M)
        (Machine.memberCall name form items source)
          (Machine.memberCall name form' items' source) := by
  rcases parts with _ | ⟨_, _ | ⟨target, args⟩⟩
  · exact .error ⟨_, rfl, forms⟩
  · exact .error ⟨_, rfl, forms⟩
  · have call : Value.Alike M (.listOf (.symbol (Symbol.bare name) :: _))
        (.listOf (.symbol (Symbol.bare name) :: _)) :=
      ⟨_, rfl, _, _, rfl, rfl, valuesAlike_iff_forall₂.mpr args⟩
    exact .ok (headedBy_alike _ source (.cons target (.cons call .nil)))

/-- The parts of member forms that are alike are alike. -/
theorem memberParts_alike (parts : FormsAlike M items items') (member : form.Alike M form')
    : FormsAlike M (Machine.memberParts form items) (Machine.memberParts form' items') := by
  cases form with
  | list inner =>
      obtain ⟨inner', rfl, same⟩ := member
      cases parts with
      | nil => exact valuesAlike_iff_forall₂.mp same
      | cons first rest => exact .cons ⟨_, rfl, same⟩ (.cons first rest)
  | vector | map | set | function | expander | node =>
      obtain ⟨_, rfl, inner⟩ := member
      exact .cons ⟨_, rfl, inner⟩ parts
  | _ =>
      obtain rfl := member
      exact .cons rfl parts

end Forms

-----------------------------------------------------------------------------------------
-- Nodes of forms
-----------------------------------------------------------------------------------------

section Nodes

variable {M : Likeness}

/-- Shapes that are alike make nodes that are. -/
theorem Node.Alike.of {s s' : Shape} (alike : s.Alike M s')
    : (Node.of s).Alike M (Node.of s') :=
  ⟨alike, rfl, M.reflexive _⟩

/-- The sequences of bodies that are alike are alike, whatever their lengths. -/
theorem sequenceOfBody_alike {body body' : List Node} (alike : NodesAlike M body body')
    : (sequenceOfBody body).Alike M (sequenceOfBody body') := by
  have whole : (Node.of (.sequence body)).Alike M (Node.of (.sequence body')) :=
    .of ⟨_, rfl, alike⟩
  rw [nodesAlike_iff_forall₂] at alike
  rcases alike with _ | ⟨only, _ | ⟨_, _⟩⟩
  · exact whole
  · exact only
  · exact whole

end Nodes

namespace Machine.Mirrored

open Run

variable {F : Filter Nat} {P : Pass} {m : Machine} [m.Steady] (machines : m.Mirrored F P)
  {k k' : Expander}
  (conts : k.Alike P k') {form form' : Value} (forms : form.Alike P form')
  {items items' : List Value} (parts : FormsAlike P items items') (c : ContextId)

/-- Runs with the same result. -/
abbrev SameResult (F : Filter Nat) (P : Pass) {α : Type} (x : Run α) (y : Nat → Run α)
    : Prop :=
  Run.Mirrored F P (fun a b => b = a) x y

-----------------------------------------------------------------------------------------
-- Parts of forms
-----------------------------------------------------------------------------------------

section Parts

include machines conts

include parts in
/-- Several forms that are alike expand alike, one by one. -/
theorem expandAll
    : Run.Mirrored F P (NodesAlike P) (m.expandAll c items k)
        fun j => (ofLevels j).expandAll c items' k' := by
  have each := parts.imp fun _ _ same => machines.expand c conts same conts
  refine (Run.Mirrored.gather (fun same => ?_) each).imp nodesAlike_iff_forall₂.mpr
  exact ⟨_, rfl, same⟩

/-- So do the keys and values of entries, in the same order. -/
theorem expandEntries {entries entries' : List (Value × Value)}
    (alike : EntriesAlike P entries entries')
    : Run.Mirrored F P (NodesAlike P) (m.expandEntries c entries k)
        fun j => (ofLevels j).expandEntries c entries' k' := by
  refine machines.expandAll conts ?_ c
  induction entries generalizing entries' with
  | nil =>
      obtain rfl := alike
      exact .nil
  | cons entry rest ih =>
      obtain ⟨_, _, others, rfl, key, value, last⟩ := alike
      exact .cons key (.cons value (ih last))

include forms in
/-- Forms that are alike are evaluated alike at once: they are expanded and then computed. -/
theorem evaluateNow
    : Run.Mirrored F P (Value.Alike P) (m.evaluateNow c form k)
        fun j => (ofLevels j).evaluateNow c form' k' :=
  (machines.expand c conts forms conts).bind fun nodes =>
    machines.compute (.inl nodes) (.refl P.exact []) c

include forms in
/-- Forms that are alike give the same name, or are refused alike. -/
theorem nameIn (role : NameRole)
    : SameResult F P (m.nameIn c form k role) fun j => (ofLevels j).nameIn c form' k' role := by
  have refused : (EvalError.analysis (.notASymbol role) form).Alike P
      (.analysis (.notASymbol role) form') := ⟨_, _, rfl, rfl, forms⟩
  have whole := forms
  cases form with
  | symbol s =>
      obtain rfl := forms
      exact .pure rfl
  | list items source =>
      obtain ⟨items', rfl, alike⟩ := forms
      have inner := unquoted?_alike (valuesAlike_iff_forall₂.mp alike)
      unfold Machine.nameIn
      dsimp only
      generalize unquoted? items = o, unquoted? items' = o' at inner ⊢
      cases inner with
      | none => exact .fail refused
      | some same =>
          refine (machines.evaluateNow conts same c).andThen (fun _ => by split <;> infer_instance)
            fun {v w} values => ?_
          have refused : (EvalError.analysis (.valueNotASymbol role v) (.list items source)).Alike P
              (.analysis (.valueNotASymbol role w) (.list items' source)) :=
            ⟨_, _, rfl, ⟨_, rfl, values⟩, whole⟩
          cases v with
          | symbol s =>
              obtain rfl := values
              exact .pure rfl
          | list | vector | map | set | function | expander | node =>
              obtain ⟨_, rfl, _⟩ := values
              exact .fail refused
          | _ =>
              obtain rfl := values
              exact .fail refused
  | vector | map | set | function | expander | node =>
      obtain ⟨_, rfl, _⟩ := forms
      exact .fail refused
  | _ =>
      obtain rfl := forms
      exact .fail refused

include parts in
/-- They give the same parameters. Witness: induction on the forms. -/
theorem paramsIn {vector vector' : Value} (vectors : vector.Alike P vector')
    : SameResult F P (m.paramsIn c vector k items)
        fun j => (ofLevels j).paramsIn c vector' k' items' := by
  induction parts with
  | nil => exact .pure rfl
  | @cons item item' rest rest' first others ih =>
      unfold Machine.paramsIn
      rw [show (item' == .symbol restMark) = (item == .symbol restMark) from first.beq_eq rfl]
      split
      · cases others with
        | nil => exact .fail ⟨_, rfl, vectors⟩
        | cons name more =>
            refine (machines.nameIn conts name c .restParameter).bind fun {r _} same => ?_
            subst same
            cases more with
            | nil => exact .pure rfl
            | cons => exact .fail ⟨_, rfl, vectors⟩
      · refine (machines.nameIn conts first c .parameter).bind fun {_ s} same => ?_
        subst same
        refine ih.bind fun {_ params} same => ?_
        subst same
        exact .pure rfl

include forms in
/-- So do vectors of them, which any other form is not. -/
theorem paramsOf
    : SameResult F P (m.paramsOf c form k) fun j => (ofLevels j).paramsOf c form' k' := by
  have refused : (EvalError.analysis .parametersNotAVector form).Alike P
      (.analysis .parametersNotAVector form') := ⟨_, _, rfl, rfl, forms⟩
  have whole := forms
  cases form with
  | vector items =>
      obtain ⟨items', rfl, alike⟩ := forms
      exact machines.paramsIn conts (valuesAlike_iff_forall₂.mp alike) c whole
  | list | map | set | function | expander | node =>
      obtain ⟨_, rfl, _⟩ := forms
      exact .fail refused
  | _ =>
      obtain rfl := forms
      exact .fail refused

end Parts

include machines forms in
/-- Forms that are alike name the same type, if they name one. -/
theorem typeNamed?
    : SameResult F P (m.typeNamed? c form) fun j => (ofLevels j).typeNamed? c form' := by
  cases form with
  | symbol s =>
      obtain rfl := forms
      unfold Machine.typeNamed?
      dsimp only
      split
      · refine (machines.slot? c s).andThen (fun _ => by split <;> infer_instance) fun slots => ?_
        cases slots with
        | some => exact .pure rfl
        | none => exact Run.Mirrored.get.bind fun stores => .pure (by rw [stores.host])
      · exact .pure rfl
  | list | vector | map | set | function | expander | node =>
      obtain ⟨_, rfl, _⟩ := forms
      exact .pure rfl
  | _ =>
      obtain rfl := forms
      exact .pure rfl

include machines conts in
/-- A name and an expression expand alike, to the same name and nodes that are alike. -/
theorem expandPair {name name' expr expr' : Value} (names : name.Alike P name')
    (exprs : expr.Alike P expr')
    : Run.Mirrored F P (fun x y => y.1 = x.1 ∧ x.2.Alike P y.2) (m.expandPair c k (name, expr))
        fun j => (ofLevels j).expandPair c k' (name', expr') := by
  refine (machines.nameIn conts names c .binding).bind fun {_ s} same => ?_
  subst same
  exact (machines.expand c conts exprs conts).bind fun node => .pure ⟨rfl, node⟩

include machines conts in
/-- So do pairs of names and expressions. Witness: induction on the pairs. -/
theorem expandPairs {pairs pairs' : List (Value × Value)} (alike : EntriesAlike P pairs pairs')
    : Run.Mirrored F P (PairsAlike P) (m.expandPairs c pairs k)
        fun j => (ofLevels j).expandPairs c pairs' k' := by
  induction pairs generalizing pairs' with
  | nil =>
      obtain rfl := alike
      exact .pure rfl
  | cons pair rest ih =>
      obtain ⟨name, expr, others, rfl, names, exprs, last⟩ := alike
      unfold Machine.expandPairs Run.gather
      refine (machines.expandPair conts c names exprs).bind fun {x y} both => ?_
      obtain ⟨s, node⟩ := x
      obtain ⟨s', node'⟩ := y
      obtain ⟨rfl, same⟩ : s' = s ∧ node.Alike P node' := both
      exact ((ih last).holdingNode same).bind fun nodes => .pure ⟨_, _, rfl, same, nodes⟩

/-- The call of a member with some arguments expands alike, by the target. -/
theorem expandTarget (machines : m.Mirrored F P) (conts : k.Alike P k') {target target' : Value}
    (targets : target.Alike P target') (name : Symbol) {args args' : List Node}
    (alike : NodesAlike P args args') (c : ContextId)
    : Run.Mirrored F P (Node.Alike P) (m.expandTarget c target name args k)
        fun j => (ofLevels j).expandTarget c target' name args' k' := by
  refine (machines.typeNamed? targets c).andThen (fun _ => by split <;> infer_instance)
    fun {_ name?} same => ?_
  subst same
  cases name? with
  | some type => exact .pure (.of ⟨_, rfl, alike⟩)
  | none =>
      exact (machines.expand c conts targets conts).bind fun target =>
        .pure (.of ⟨_, _, rfl, target, alike⟩)

/-- The call of a member, which is the first of some forms, on a target. -/
theorem expandMemberCall (machines : m.Mirrored F P) (conts : k.Alike P k')
    (forms : form.Alike P form') {target target' : Value} (targets : target.Alike P target')
    (parts : FormsAlike P items items') (c : ContextId)
    : Run.Mirrored F P (Node.Alike P) (m.expandMemberCall c form target items k)
        fun j => (ofLevels j).expandMemberCall c form' target' items' k' := by
  cases parts with
  | nil => exact .fail ⟨_, rfl, forms⟩
  | @cons member member' _ _ members args =>
      have refused : (EvalError.analysis (.notASymbol .member) member).Alike P
          (.analysis (.notASymbol .member) member') := ⟨_, _, rfl, rfl, members⟩
      cases member with
      | symbol name =>
          obtain rfl := members
          exact (machines.expandAll conts args c).bind fun args =>
            (machines.expandTarget conts targets name args c).holdingNodes args
      | list | vector | map | set | function | expander | node =>
          obtain ⟨_, rfl, _⟩ := members
          exact .fail refused
      | _ =>
          obtain rfl := members
          exact .fail refused

-----------------------------------------------------------------------------------------
-- Special forms
-----------------------------------------------------------------------------------------

section SpecialForms

include machines conts parts

include forms in
/-- Definitions expand alike, by the name and the expression. -/
theorem expandDefine
    : Run.Mirrored F P (Node.Alike P) (m.expandDefine c form items k)
        fun j => (ofLevels j).expandDefine c form' items' k' := by
  have refused : (EvalError.expansion .define form).Alike P (.expansion .define form') :=
    ⟨_, rfl, forms⟩
  rcases parts with _ | ⟨_, _ | ⟨name, _ | ⟨expr, _ | _⟩⟩⟩
  case cons.cons.cons.nil =>
    refine (machines.nameIn conts name c .definition).bind fun {_ s} same => ?_
    subst same
    exact (machines.expand c conts expr conts).bind fun node => .pure (.of ⟨_, rfl, node⟩)
  all_goals exact .fail refused

omit [m.Steady] in
include forms in
/-- So do defined functions, by the name, the parameters and the body. -/
theorem expandDefineFunction
    : Run.Mirrored F P (Node.Alike P) (m.expandDefineFunction c form items k)
        fun j => (ofLevels j).expandDefineFunction c form' items' k' := by
  have refused : (EvalError.expansion .defineFunction form).Alike P
      (.expansion .defineFunction form') := ⟨_, rfl, forms⟩
  rcases parts with _ | ⟨_, _ | ⟨name, _ | ⟨params, body⟩⟩⟩
  case cons.cons.cons =>
    unfold Machine.expandDefineFunction
    dsimp only
    rw [forms.location?_eq]
    have function := headedBy_alike .function form.location? (.cons params body)
    exact machines.expand c conts (headedBy_alike _ _ (.cons name (.cons function .nil))) conts
  all_goals exact .fail refused

include forms in
/-- So do functions, by the parameters and the body. -/
theorem expandFunction
    : Run.Mirrored F P (Node.Alike P) (m.expandFunction c form items k)
        fun j => (ofLevels j).expandFunction c form' items' k' := by
  have refused : (EvalError.expansion .function form).Alike P (.expansion .function form') :=
    ⟨_, rfl, forms⟩
  rcases parts with _ | ⟨_, _ | ⟨params, body⟩⟩
  case cons.cons =>
    refine (machines.paramsOf conts params c).bind fun {_ bound} same => ?_
    subst same
    exact (machines.expandAll conts body c).bind fun nodes =>
      .pure (.of ⟨_, rfl, sequenceOfBody_alike nodes⟩)
  all_goals exact .fail refused

include forms in
/-- So do conditionals, by the number of their parts. -/
theorem expandConditional
    : Run.Mirrored F P (Node.Alike P) (m.expandConditional c form items k)
        fun j => (ofLevels j).expandConditional c form' items' k' := by
  have refused : (EvalError.expansion .conditional form).Alike P
      (.expansion .conditional form') := ⟨_, rfl, forms⟩
  rcases parts with _ | ⟨_, _ | ⟨test, _ | ⟨yes, rest⟩⟩⟩
  case cons.cons.cons =>
    unfold Machine.expandConditional
    dsimp only
    rw [rest.length_eq]
    split
    · exact .fail refused
    · cases rest with
      | nil =>
          refine (machines.expand c conts test conts).bind fun test => ?_
          exact ((machines.expand c conts yes conts).holdingNode test).bind fun yes =>
            .pure (.of ⟨_, _, _, rfl, test, yes, .refl P.exact _⟩)
      | cons no =>
          refine (machines.expand c conts test conts).bind fun {t t'} test => ?_
          refine ((machines.expand c conts yes conts).holdingNode test).bind fun {y y'} yes => ?_
          have both : NodesAlike P [t, y] [t', y'] :=
            nodesAlike_iff_forall₂.mpr (.cons test (.cons yes .nil))
          exact ((machines.expand c conts no conts).holdingNodes both).bind fun no =>
            .pure (.of ⟨_, _, _, rfl, test, yes, no⟩)
  all_goals exact .fail refused

include forms in
/-- So do bindings around a body, by the pairs and the body. -/
theorem expandBinding
    : Run.Mirrored F P (Node.Alike P) (m.expandBinding c form items k)
        fun j => (ofLevels j).expandBinding c form' items' k' := by
  rcases parts with _ | ⟨_, _ | ⟨bindings, body⟩⟩
  · exact .fail ⟨_, rfl, forms⟩
  · exact .fail ⟨_, rfl, forms⟩
  · rename_i vector vector' _ _
    have refused : (EvalError.analysis .bindingsNotAVector vector).Alike P
        (.analysis .bindingsNotAVector vector') := ⟨_, _, rfl, rfl, bindings⟩
    cases vector with
    | vector pairs =>
        obtain ⟨pairs', rfl, alike⟩ := bindings
        unfold Machine.expandBinding
        dsimp only
        rw [alike.length_eq]
        split
        · exact .fail ⟨_, rfl, forms⟩
        · refine (machines.expandPairs conts c (pairs_alike alike)).bind fun pairs => ?_
          exact ((machines.expandAll conts body c).holdingPairs pairs).bind fun nodes =>
            .pure (.of ⟨_, _, rfl, pairs, sequenceOfBody_alike nodes⟩)
    | list | map | set | function | expander | node =>
        obtain ⟨_, rfl, _⟩ := bindings
        exact .fail refused
    | _ =>
        obtain rfl := bindings
        exact .fail refused

include forms in
/-- So do macros, by the parameters and the body. -/
theorem expandMacroLiteral
    : Run.Mirrored F P (Node.Alike P) (m.expandMacroLiteral c form items k)
        fun j => (ofLevels j).expandMacroLiteral c form' items' k' := by
  have refused : (EvalError.expansion .macroLiteral form).Alike P
      (.expansion .macroLiteral form') := ⟨_, rfl, forms⟩
  rcases parts with _ | ⟨_, _ | ⟨params, body⟩⟩
  case cons.cons =>
    unfold Machine.expandMacroLiteral
    dsimp only
    rw [isEmpty_eq body]
    split
    · exact .fail refused
    · refine (machines.paramsOf conts params c).andThen
        (fun _ => .andThen fun _ => .andThen fun _ => by split <;> infer_instance)
        fun {_ bound} same => ?_
      subst same
      refine (machines.expandAll conts body c).andThen
        (fun _ => .andThen fun _ => by split <;> infer_instance) fun nodes => ?_
      have literal : Node.Alike P (.of (.lambda bound.1 bound.2 (sequenceOfBody _)))
          (.of (.lambda bound.1 bound.2 (sequenceOfBody _))) :=
        .of ⟨_, rfl, sequenceOfBody_alike nodes⟩
      refine (machines.compute (.inl literal) (.refl P.exact []) c).andThen
        (fun _ => by split <;> infer_instance) fun {v w} values => ?_
      have refused := wrongType_alike "function" values
      cases v with
      | function f =>
          obtain ⟨f', rfl, functions⟩ := values
          exact Run.Mirrored.newIdentity.bind fun same =>
            .pure (.of ⟨_, rfl, _, rfl, _, rfl, congrArg some same, functions⟩)
      | list | vector | map | set | expander | node =>
          obtain ⟨_, rfl, _⟩ := values
          exact .fail refused
      | _ =>
          obtain rfl := values
          exact .fail refused
  all_goals exact .fail refused

omit [m.Steady] in
include forms in
/-- So do defined macros, as the definitions that they stand for. -/
theorem expandDefineMacro
    : Run.Mirrored F P (Node.Alike P) (m.expandDefineMacro c form items k)
        fun j => (ofLevels j).expandDefineMacro c form' items' k' := by
  have refused : (EvalError.expansion .defineMacro form).Alike P
      (.expansion .defineMacro form') := ⟨_, rfl, forms⟩
  rcases parts with _ | ⟨_, _ | ⟨name, _ | ⟨params, _ | ⟨first, body⟩⟩⟩⟩
  case cons.cons.cons.cons =>
    unfold Machine.expandDefineMacro
    dsimp only
    rw [forms.location?_eq]
    have literal := headedBy_alike .macroLiteral form.location? (.cons params (.cons first body))
    exact machines.expand c conts (headedBy_alike _ _ (.cons name (.cons literal .nil))) conts
  all_goals exact .fail refused

include forms in
/-- So do expanders, by the names in their headers and the body. -/
theorem expandExpanderLiteral
    : Run.Mirrored F P (Node.Alike P) (m.expandExpanderLiteral c form items k)
        fun j => (ofLevels j).expandExpanderLiteral c form' items' k' := by
  rcases parts with _ | ⟨_, _ | ⟨header, body⟩⟩
  · exact .fail ⟨_, rfl, forms⟩
  · exact .fail ⟨_, rfl, forms⟩
  · rename_i vector vector' _ _
    have refused : (EvalError.analysis .expanderHeader vector).Alike P
        (.analysis .expanderHeader vector') := ⟨_, _, rfl, rfl, header⟩
    cases vector with
    | vector names =>
        obtain ⟨names', rfl, alike⟩ := header
        rw [valuesAlike_iff_forall₂] at alike
        rcases alike with _ | ⟨continuation, _ | ⟨params, _ | _⟩⟩
        case cons.cons.nil =>
          refine (machines.nameIn conts continuation c .continuation).bind fun {_ s} same => ?_
          subst same
          refine (machines.paramsOf conts params c).bind fun {_ bound} same => ?_
          subst same
          obtain ⟨names, rest⟩ := bound
          dsimp only
          split
          · exact .fail ⟨_, _, rfl, rfl, params⟩
          · exact (machines.expandAll conts body c).bind fun nodes =>
              .pure (.of ⟨_, rfl, sequenceOfBody_alike nodes⟩)
        all_goals exact .fail refused
    | list | map | set | function | expander | node =>
        obtain ⟨_, rfl, _⟩ := header
        exact .fail refused
    | _ =>
        obtain rfl := header
        exact .fail refused

include forms in
/-- So do member forms, by the member that they name. -/
theorem expandMember
    : Run.Mirrored F P (Node.Alike P) (m.expandMember c form items k)
        fun j => (ofLevels j).expandMember c form' items' k' := by
  have refused : (EvalError.expansion .member form).Alike P (.expansion .member form') :=
    ⟨_, rfl, forms⟩
  rcases parts with _ | ⟨_, _ | ⟨target, _ | ⟨member, more⟩⟩⟩
  case cons.cons.cons =>
    exact machines.expandMemberCall conts forms target (memberParts_alike more member) c
  all_goals exact .fail refused

include forms in
/-- So do casts, by the type and the expression. -/
theorem expandCast
    : Run.Mirrored F P (Node.Alike P) (m.expandCast c form items k)
        fun j => (ofLevels j).expandCast c form' items' k' := by
  have refused : (EvalError.expansion .cast form).Alike P (.expansion .cast form') :=
    ⟨_, rfl, forms⟩
  rcases parts with _ | ⟨_, _ | ⟨type, _ | ⟨expr, _ | _⟩⟩⟩
  case cons.cons.cons.nil =>
    have converted (name : String) := (machines.expand c conts expr conts).bind
      (R := Node.Alike P) (f := fun n => pure (.of (.cast name n)))
      (g := fun _ n => pure (.of (.cast name n))) fun node => .pure (.of ⟨_, rfl, node⟩)
    refine (machines.typeNamed? type c).andThen (fun _ => ?_) fun {_ name?} same => ?_
    · dsimp only
      split
      · infer_instance
      · exact .andThen fun _ => by split <;> infer_instance
    subst same
    cases name? with
    | some name => exact converted name
    | none =>
        refine (machines.evaluateNow conts type c).andThen (fun _ => by split <;> infer_instance)
          fun {v w} values => ?_
        cases v with
        | type name =>
            obtain rfl := values
            exact converted name
        | list | vector | map | set | function | expander | node =>
            obtain ⟨_, rfl, _⟩ := values
            exact .fail ⟨_, _, rfl, rfl, type⟩
        | _ =>
            obtain rfl := values
            exact .fail ⟨_, _, rfl, rfl, type⟩
  all_goals exact .fail refused

include forms in
/-- So do tests for a type, by the type and the expression. -/
theorem expandInstanceOf
    : Run.Mirrored F P (Node.Alike P) (m.expandInstanceOf c form items k)
        fun j => (ofLevels j).expandInstanceOf c form' items' k' := by
  have refused : (EvalError.expansion .instanceOf form).Alike P (.expansion .instanceOf form') :=
    ⟨_, rfl, forms⟩
  rcases parts with _ | ⟨_, _ | ⟨type, _ | ⟨expr, _ | _⟩⟩⟩
  case cons.cons.cons.nil =>
    refine (machines.typeNamed? type c).andThen (fun _ => by dsimp only; split <;> infer_instance)
      fun {_ name?} same => ?_
    subst same
    cases name? with
    | some name =>
        have types := Node.Alike.refl P.exact (.constant (.type name))
        exact ((machines.expand c conts expr conts).holdingNode types).bind fun node =>
          .pure (.of ⟨_, _, rfl, types, node⟩)
    | none =>
        refine (machines.expand c conts type conts).bind fun types => ?_
        exact ((machines.expand c conts expr conts).holdingNode types).bind fun node =>
          .pure (.of ⟨_, _, rfl, types, node⟩)
  all_goals exact .fail refused

end SpecialForms

end Machine.Mirrored

end IncrementalLisp
