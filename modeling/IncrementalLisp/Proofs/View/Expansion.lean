import IncrementalLisp.Expansion.Expanders
import IncrementalLisp.Proofs.View.Calls

/-! Expansion of forms that look alike, on machines that respect the view: it comes to nodes that
look alike.
-/

namespace IncrementalLisp

variable {V : View}

-----------------------------------------------------------------------------------------
-- Forms
-----------------------------------------------------------------------------------------

/-- Forms that are seen alike stand at places that are. -/
theorem Value.location?_same {form form' : Value} (same : form.seen V = form'.seen V)
    : V.source form.location? = V.source form'.location? := by
  rw [← form.location?_seen, same, form'.location?_seen]

/-- A list under the head of a special form is seen item by item. -/
theorem headedBy_seen (f : SpecialForm) (source : Option Location) (items : List Value)
    : headedBy f (V.source source) (items.map (Value.seen V))
      = (headedBy f source items).seen V := by
  simp [headedBy]

/-- A list is seen to unquote a form as it does, by its items. -/
theorem unquoted?_seen (items : List Value)
    : unquoted? (items.map (Value.seen V)) = (unquoted? items).map (Value.seen V) := by
  rcases items with _ | ⟨head, rest⟩
  · rfl
  · cases head with
    | symbol s =>
        rcases rest with _ | ⟨form, _ | ⟨_, _⟩⟩
        case cons.nil =>
          simp only [List.map_cons, List.map_nil, Value.seen, unquoted?]
          split <;> rfl
        all_goals rfl
    | _ => rfl

/-- Lists that are seen alike unquote forms that are, or neither of them unquotes one. -/
theorem unquoted?_same {items items' : List Value}
    (parts : items.map (Value.seen V) = items'.map (Value.seen V))
    : Option.Rel (fun v w => v.seen V = w.seen V) (unquoted? items) (unquoted? items') := by
  refine rel_of_map_eq ?_
  rw [← unquoted?_seen, parts, unquoted?_seen]

/-- The sequence of a body is seen node by node, whatever its length. -/
theorem sequenceOfBody_seen (body : List Node)
    : sequenceOfBody (body.map (Node.seen V)) = (sequenceOfBody body).seen V := by
  rcases body with _ | ⟨only, _ | ⟨second, rest⟩⟩
  · rfl
  · rfl
  · simp [sequenceOfBody]

/-- The call of a member is seen to stand for what it stands for, or to be refused. -/
theorem memberCall_seen (name : String) (form : Value) (items : List Value)
    (source : Option Location)
    : Machine.memberCall name (form.seen V) (items.map (Value.seen V)) (V.source source)
      = seenEnd V (Value.seen V) (Machine.memberCall name form items source) := by
  rcases items with _ | ⟨_, _ | ⟨target, args⟩⟩
  · rfl
  · rfl
  · simp [Machine.memberCall, headedBy]

/-- The parts of a member form are seen one by one. -/
theorem memberParts_seen (member : Value) (more : List Value)
    : Machine.memberParts (member.seen V) (more.map (Value.seen V))
      = (Machine.memberParts member more).map (Value.seen V) := by
  cases member with
  | list inner source => cases more <;> simp [Machine.memberParts]
  | _ => rfl

/-- An expander is seen to have been descended from as it has, or to be at its limit. -/
theorem Expander.descended_seen (k : Expander) (form : Value)
    : (k.seen V).descended (form.seen V) = seenEnd V (Expander.seen V) (k.descended form) := by
  cases k with
  | initial n => cases n <;> rfl
  | _ => rfl

/-- To the body of a user's expander its frame for a continuation and arguments that look alike
looks alike.
-/
theorem UserExpander.frame_same {u u' : UserExpander} (same : u.seen V = u'.seen V)
    {k k' : Expander} (onward : k.seen V = k'.seen V) {args args' : List Value}
    (values : args.map (Value.seen V) = args'.map (Value.seen V))
    : Bindings.seen V u.body.reads (u.frame k args)
      = Bindings.seen V u.body.reads (u'.frame k' args') := by
  cases u with | mk _ continuation params body captured =>
  cases u'
  simp only [seen, seenCaptured_eq_seen, UserExpander.mk.injEq] at same
  obtain ⟨-, rfl, rfl, bodies, bindings⟩ := same
  rw [← Node.reads_same bodies] at bindings
  have continued : (Value.expander k).seen V = (Value.expander k').seen V :=
    congrArg Value.expander onward
  refine Bindings.bound_same params values (Bindings.insert_same continued ?_)
  exact Bindings.same_of_fewer bindings fun s read => by simp_all

namespace Run.Agree

variable {α γ : Type} {f : α → γ} {form form' : Value} (same : form.seen V = form'.seen V)
include same

/-- Forms that are seen alike are misshapen alike. -/
theorem expansionError (fault : ShapeFault)
    : Agree V f (Run.fail (.expansion fault form)) (Run.fail (.expansion fault form')) :=
  .fail (by simp [same])

/-- Parts that are seen alike are misplaced alike. -/
theorem analysisError {fault fault' : PartFault} (faults : fault.seen V = fault'.seen V)
    : Agree V f (Run.fail (.analysis fault form)) (Run.fail (.analysis fault' form')) :=
  .fail (by simp [faults, same])

end Run.Agree

namespace Machine.Respects

open Run (Agree)

variable {m : Machine} (machines : m.Respects V)

-----------------------------------------------------------------------------------------
-- Parts of forms
-----------------------------------------------------------------------------------------

section Parts

include machines

variable (c : ContextId) {form form' : Value} (same : form.seen V = form'.seen V)
  {items items' : List Value} (parts : List.Forall₂ (fun v w => v.seen V = w.seen V) items items')
  {k k' : Expander} (onward : k.seen V = k'.seen V)

section

include parts onward

/-- Several forms that are seen alike expand alike, one by one. -/
theorem expandAll
    : Agree V (List.map (Node.seen V)) (m.expandAll c items k) (m.expandAll c items' k') :=
  .gather (congrArg Value.node) (parts.imp fun _ _ same => machines.expand c onward same onward)

omit parts in
/-- So do the keys and values of entries, in the same order. -/
theorem expandEntries {entries entries' : List (Value × Value)}
    (same : entries.map (seenEntry V) = entries'.map (seenEntry V))
    : Agree V (List.map (Node.seen V)) (m.expandEntries c entries k)
        (m.expandEntries c entries' k') := by
  refine machines.expandAll c (forall₂_of_map_eq ?_) onward
  have flat (entries : List (Value × Value))
      : (entries.flatMap fun entry => [entry.1, entry.2]).map (Value.seen V)
        = (entries.map (seenEntry V)).flatMap fun entry => [entry.1, entry.2] := by
    rw [List.flatMap_map, List.map_flatMap]
    rfl
  exact (flat entries).trans (same ▸ (flat entries').symm)

omit parts in
include same in
/-- Forms that are seen alike are evaluated alike at once: they are expanded and then computed. -/
theorem evaluateNow
    : Agree V (Value.seen V) (m.evaluateNow c form k) (m.evaluateNow c form' k') :=
  (machines.expand c onward same onward).bind fun nodes => machines.compute nodes rfl c

omit parts in
include same in
/-- They give the same name, or are refused alike. -/
theorem nameIn (role : NameRole)
    : Agree V id (m.nameIn c form k role) (m.nameIn c form' k' role) := by
  have failed (fault fault' : PartFault) (faults : fault.seen V = fault'.seen V)
      : Agree V id (Run.fail (.analysis fault form) : Run Symbol)
          (Run.fail (.analysis fault' form')) :=
    .analysisError same faults
  cases Value.looksLike same with
  | symbol s => exact .pure rfl
  | @list items items' _ _ parts _ =>
      have unquotes := unquoted?_same parts
      unfold Machine.nameIn
      dsimp only
      generalize unquoted? items = o, unquoted? items' = o' at unquotes ⊢
      cases unquotes with
      | none => exact failed _ _ rfl
      | some inner =>
          refine (machines.evaluateNow c inner onward).bind fun {v w} values => ?_
          have other := failed (.valueNotASymbol role v) (.valueNotASymbol role w)
            (by simp [PartFault.seen, values])
          cases Value.looksLike values with
          | symbol s => exact .pure rfl
          | _ => exact other
  | _ => exact failed _ _ rfl

omit parts in
/-- The parameters in a list of forms. Witness: induction on the forms. -/
theorem paramsIn {vector vector' : Value} (vectors : vector.seen V = vector'.seen V)
    (parts : List.Forall₂ (fun v w => v.seen V = w.seen V) items items')
    : Agree V id (m.paramsIn c vector k items) (m.paramsIn c vector' k' items') := by
  induction parts with
  | nil => exact .pure rfl
  | @cons item item' rest rest' same others ih =>
      have marked : (item == .symbol restMark) = (item' == .symbol restMark) := by
        have alike := item.beq_seen (.symbol restMark) (V := V)
        rw [same] at alike
        exact alike.symm.trans (item'.beq_seen (.symbol restMark))
      unfold Machine.paramsIn
      rw [marked]
      split
      · cases others with
        | nil => exact .expansionError vectors _
        | cons name more =>
            refine (machines.nameIn c name onward .restParameter).bindEq fun r => ?_
            cases more with
            | nil => exact .pure rfl
            | cons => exact .expansionError vectors _
      · refine (machines.nameIn c same onward .parameter).bindEq fun s => ?_
        exact ih.bindEq fun _ => .pure rfl

omit parts in
include same in
/-- Forms that are seen alike give the same parameters, if they are vectors. -/
theorem paramsOf
    : Agree V id (m.paramsOf c form k) (m.paramsOf c form' k') := by
  cases Value.looksLike same with
  | vector parts => exact machines.paramsIn c onward same (forall₂_of_map_eq parts)
  | _ => exact .analysisError same rfl

end

include same in
/-- They name the same type, if they name one. -/
theorem typeNamed?
    : Agree V id (m.typeNamed? c form) (m.typeNamed? c form') := by
  cases Value.looksLike same with
  | symbol s =>
      unfold Machine.typeNamed?
      dsimp only
      split
      · refine (machines.slot? c s).bind fun {o o'} slots => ?_
        cases rel_of_map_eq slots with
        | some => exact .pure rfl
        | none => exact .get fun stores _ => .pure (by rw [Store.host_same stores])
      · exact .pure rfl
  | _ => exact .pure rfl

include onward

/-- A name and its expression expand alike. -/
theorem expandPair {pair pair' : Value × Value} (same : seenEntry V pair = seenEntry V pair')
    : Agree V (seenPair V) (m.expandPair c k pair) (m.expandPair c k' pair') := by
  obtain ⟨names, exprs⟩ := Prod.mk.inj same
  refine (machines.nameIn c names onward .binding).bindEq fun s => ?_
  exact (machines.expand c onward exprs onward).bind fun nodes => .pure (by simp [nodes])

/-- Pairs of names and expressions expand alike, one by one. -/
theorem expandPairs {pairs pairs' : List (Value × Value)}
    (same : pairs.map (seenEntry V) = pairs'.map (seenEntry V))
    : Agree V (List.map (seenPair V)) (m.expandPairs c pairs k) (m.expandPairs c pairs' k') := by
  refine .gather (fun same => congrArg (fun pair : Symbol × Node => Value.node pair.2) same) ?_
  exact (forall₂_of_map_eq same).imp fun _ _ same => machines.expandPair c onward same

/-- The call of a member on a target, given alike nodes of the arguments. -/
theorem expandTarget {target target' : Value} (targets : target.seen V = target'.seen V)
    (name : Symbol) {args args' : List Node}
    (nodes : args.map (Node.seen V) = args'.map (Node.seen V))
    : Agree V (Node.seen V) (m.expandTarget c target name args k)
        (m.expandTarget c target' name args' k') := by
  refine (machines.typeNamed? c targets).bindEq fun name? => ?_
  cases name? with
  | some type => exact .pure (by simp [nodes])
  | none =>
      exact (machines.expand c onward targets onward).bind fun callee =>
        .pure (by simp [nodes, callee])

include same parts in
/-- The call of a member, which is the first of some forms, on a target. -/
theorem expandMemberCall {target target' : Value} (targets : target.seen V = target'.seen V)
    : Agree V (Node.seen V) (m.expandMemberCall c form target items k)
        (m.expandMemberCall c form' target' items' k') := by
  rcases parts with _ | ⟨member, args⟩
  · exact .expansionError same _
  · cases Value.looksLike member with
    | symbol name =>
        exact (machines.expandAll c args onward).bind fun args =>
          (machines.expandTarget c onward targets name args).holdingNodes args
    | _ => exact .analysisError member rfl

end Parts

-----------------------------------------------------------------------------------------
-- Special forms
-----------------------------------------------------------------------------------------

section SpecialForms

include machines

variable (c : ContextId) {form form' : Value} (same : form.seen V = form'.seen V)
  {items items' : List Value} (parts : List.Forall₂ (fun v w => v.seen V = w.seen V) items items')
  {k k' : Expander} (onward : k.seen V = k'.seen V)
include same parts onward

/-- Definitions expand alike, by the name and the expression. -/
theorem expandDefine
    : Agree V (Node.seen V) (m.expandDefine c form items k) (m.expandDefine c form' items' k') := by
  rcases parts with _ | ⟨_, _ | ⟨name, _ | ⟨expr, _ | ⟨_, _⟩⟩⟩⟩
  case cons.cons.cons.nil =>
    refine (machines.nameIn c name onward .definition).bindEq fun s => ?_
    exact (machines.expand c onward expr onward).bind fun nodes => .pure (by simp [nodes])
  all_goals exact .expansionError same _

/-- So do defined functions, by the name, the parameters and the body. -/
theorem expandDefineFunction
    : Agree V (Node.seen V) (m.expandDefineFunction c form items k)
        (m.expandDefineFunction c form' items' k') := by
  have places := Value.location?_same same
  rcases parts with _ | ⟨_, _ | ⟨name, _ | ⟨params, body⟩⟩⟩
  case cons.cons.cons =>
    refine machines.expand c onward ?_ onward
    simp only [← headedBy_seen, List.map_cons, List.map_nil, places, name, params,
      map_eq_of_forall₂ body]
  all_goals exact .expansionError same _

/-- So do functions, by the parameters and the body. -/
theorem expandFunction
    : Agree V (Node.seen V) (m.expandFunction c form items k)
        (m.expandFunction c form' items' k') := by
  rcases parts with _ | ⟨_, _ | ⟨params, body⟩⟩
  case cons.cons =>
    refine (machines.paramsOf c params onward).bindEq fun bound => ?_
    refine (machines.expandAll c body onward).bind fun nodes => .pure ?_
    simp [← sequenceOfBody_seen, nodes]
  all_goals exact .expansionError same _

/-- So do conditionals, by the number of their parts. -/
theorem expandConditional
    : Agree V (Node.seen V) (m.expandConditional c form items k)
        (m.expandConditional c form' items' k') := by
  rcases parts with _ | ⟨_, _ | ⟨test, _ | ⟨yes, rest⟩⟩⟩
  case cons.cons.cons =>
    unfold Machine.expandConditional
    dsimp only
    rw [rest.length_eq]
    split
    · exact .expansionError same _
    · refine (machines.expand c onward test onward).bind fun {t t'} tests => ?_
      refine ((machines.expand c onward yes onward).holdingNode tests).bind fun {y y'} yes => ?_
      cases rest with
      | nil => exact .pure (by simp [tests, yes])
      | cons no _ =>
          have both : [t, y].map (Node.seen V) = [t', y'].map (Node.seen V) := by
            simp only [List.map_cons, tests, yes]
          have hands := (machines.expand c onward no onward).holdingNodes both
          exact hands.bind fun no => .pure (by simp [tests, yes, no])
  all_goals exact .expansionError same _

/-- So do bindings around a body, by the pairs and the body. -/
theorem expandBinding
    : Agree V (Node.seen V) (m.expandBinding c form items k)
        (m.expandBinding c form' items' k') := by
  rcases parts with _ | ⟨_, _ | ⟨second, body⟩⟩
  case cons.cons =>
    cases Value.looksLike second with
    | @vector pairs pairs' values =>
        have entries
            : (Value.pairs pairs).map (seenEntry V) = (Value.pairs pairs').map (seenEntry V) := by
          rw [← Value.pairs_seen, values, Value.pairs_seen]
        have count : pairs.length = pairs'.length := (forall₂_of_map_eq values).length_eq
        unfold Machine.expandBinding
        dsimp only
        rw [count]
        split
        · exact .expansionError same _
        · refine (machines.expandPairs c onward entries).bind fun bound => ?_
          have inner := machines.expandAll c body onward
          refine (inner.holdingPairs bound).bind fun nodes => .pure ?_
          simp [← sequenceOfBody_seen, bound, nodes]
    | _ => exact .analysisError second rfl
  all_goals exact .expansionError same _

/-- So do maps, by their keys and values. -/
theorem expandHashMap
    : Agree V (Node.seen V) (m.expandHashMap c form items k)
        (m.expandHashMap c form' items' k') := by
  unfold Machine.expandHashMap
  have rest : List.Forall₂ (fun v w => v.seen V = w.seen V) items.tail items'.tail := by
    rw [← List.drop_one, ← List.drop_one]
    exact List.forall₂_drop 1 parts
  rw [parts.length_eq]
  split
  · exact .expansionError same _
  · exact (machines.expandAll c rest onward).bind fun nodes => .pure (by simp [nodes])

omit machines onward in
/-- So do changes of the namespace, by the name that they give. -/
theorem expandEnterSpace
    : Agree V (Node.seen V) (expandEnterSpace form items)
        (Machine.expandEnterSpace form' items') := by
  rcases parts with _ | ⟨_, _ | ⟨name, _ | ⟨_, _⟩⟩⟩
  case cons.cons.nil =>
    cases Value.looksLike name with
    | symbol s =>
        unfold Machine.expandEnterSpace
        dsimp only
        split
        · exact .fail rfl
        · exact .pure rfl
    | _ => exact .analysisError name rfl
  all_goals exact .expansionError same _

/-- So do member forms, by the member that they name. -/
theorem expandMember
    : Agree V (Node.seen V) (m.expandMember c form items k)
        (m.expandMember c form' items' k') := by
  rcases parts with _ | ⟨_, _ | ⟨target, _ | ⟨member, more⟩⟩⟩
  case cons.cons.cons =>
    refine machines.expandMemberCall c same (forall₂_of_map_eq ?_) onward target
    rw [← memberParts_seen, member, map_eq_of_forall₂ more, memberParts_seen]
  all_goals exact .expansionError same _

/-- So do casts, by the type and the expression. -/
theorem expandCast
    : Agree V (Node.seen V) (m.expandCast c form items k) (m.expandCast c form' items' k') := by
  rcases parts with _ | ⟨_, _ | ⟨type, _ | ⟨expr, _ | ⟨_, _⟩⟩⟩⟩
  case cons.cons.cons.nil =>
    refine (machines.typeNamed? c type).bindEq fun name? => ?_
    have rest (name : String)
        : Agree V (Node.seen V) (do return .of (.cast name (← m.expand k c _ k)))
            (do return .of (.cast name (← m.expand k' c _ k'))) :=
      (machines.expand c onward expr onward).bind fun nodes => .pure (by simp [nodes])
    cases name? with
    | some name => exact rest name
    | none =>
        dsimp only
        refine (machines.evaluateNow c type onward).bind fun values => ?_
        cases Value.looksLike values with
        | type name => exact rest name
        | _ => exact .analysisError type rfl
  all_goals exact .expansionError same _

/-- So do tests for a type, by the type and the expression. -/
theorem expandInstanceOf
    : Agree V (Node.seen V) (m.expandInstanceOf c form items k)
        (m.expandInstanceOf c form' items' k') := by
  rcases parts with _ | ⟨_, _ | ⟨type, _ | ⟨expr, _ | ⟨_, _⟩⟩⟩⟩
  case cons.cons.cons.nil =>
    refine (machines.typeNamed? c type).bindEq fun name? => ?_
    cases name? with
    | some name =>
        exact ((machines.expand c onward expr onward).holdingOne rfl).bind fun nodes =>
          .pure (by simp [nodes])
    | none =>
        refine (machines.expand c onward type onward).bind fun types => ?_
        have tested := machines.expand c onward expr onward
        exact (tested.holdingNode types).bind fun nodes =>
          .pure (by simp [types, nodes])
  all_goals exact .expansionError same _

/-- So do macros, by the parameters and the body. -/
theorem expandMacroLiteral
    : Agree V (Node.seen V) (m.expandMacroLiteral c form items k)
        (m.expandMacroLiteral c form' items' k') := by
  rcases parts with _ | ⟨_, _ | ⟨params, body⟩⟩
  case cons.cons =>
    unfold Machine.expandMacroLiteral
    cases body with
    | nil => exact .expansionError same _
    | cons first rest =>
        simp only [List.isEmpty_cons, Bool.false_eq_true, if_false]
        refine (machines.paramsOf c params onward).bindEq fun bound => ?_
        refine (machines.expandAll c (.cons first rest) onward).bind fun {ns ns'} nodes => ?_
        have function
            : (Node.of (.lambda bound.1 bound.2 (sequenceOfBody ns))).seen V
              = (Node.of (.lambda bound.1 bound.2 (sequenceOfBody ns'))).seen V := by
          simp [← sequenceOfBody_seen, nodes]
        refine (machines.compute function rfl c).bind fun {v w} values => ?_
        have wrong : (EvalError.wrongType "function" v).seen V
            = (EvalError.wrongType "function" w).seen V := by
          rw [← EvalError.wrongType_seen (V := V), values, EvalError.wrongType_seen]
        cases Value.looksLike values with
        | function same =>
            exact Run.Agree.newIdentity.bindEq fun i => .pure (by simp [Macro.seen, same])
        | _ => exact .fail wrong
  all_goals exact .expansionError same _

/-- So do defined macros, as the definitions that they stand for. -/
theorem expandDefineMacro
    : Agree V (Node.seen V) (m.expandDefineMacro c form items k)
        (m.expandDefineMacro c form' items' k') := by
  have places := Value.location?_same same
  rcases parts with _ | ⟨_, _ | ⟨name, _ | ⟨params, _ | ⟨first, body⟩⟩⟩⟩
  case cons.cons.cons.cons =>
    refine machines.expand c onward ?_ onward
    simp only [← headedBy_seen, List.map_cons, List.map_nil, places, name, params, first,
      map_eq_of_forall₂ body]
  all_goals exact .expansionError same _

/-- So do expanders, by the names in their headers and the body. -/
theorem expandExpanderLiteral
    : Agree V (Node.seen V) (m.expandExpanderLiteral c form items k)
        (m.expandExpanderLiteral c form' items' k') := by
  rcases parts with _ | ⟨_, _ | ⟨header, body⟩⟩
  case cons.cons =>
    cases Value.looksLike header with
    | vector names =>
        rcases forall₂_of_map_eq names with _ | ⟨continuation, _ | ⟨params, _ | ⟨_, _⟩⟩⟩
        case cons.cons.nil =>
          refine (machines.nameIn c continuation onward .continuation).bindEq fun s => ?_
          refine (machines.paramsOf c params onward).bindEq fun bound => ?_
          dsimp only
          split
          · exact .analysisError params rfl
          · refine (machines.expandAll c body onward).bind fun nodes => .pure ?_
            simp [← sequenceOfBody_seen, nodes]
        all_goals exact .analysisError header rfl
    | _ => exact .analysisError header rfl
  all_goals exact .expansionError same _

end SpecialForms

-----------------------------------------------------------------------------------------
-- Quoting
-----------------------------------------------------------------------------------------

section Quoting

include machines

variable (c : ContextId) {k k' : Expander} (onward : k.seen V = k'.seen V)
include onward

omit machines onward in
mutual

/-- Unquoted forms are replaced alike. Witness: induction on the form. -/
theorem substituted (machines : m.Respects V) (onward : k.seen V = k'.seen V)
    : ∀ (form : Value) {form' : Value}, form.seen V = form'.seen V
        → Agree V (Value.seen V) (m.substituted c k form) (m.substituted c k' form')
  | .list items _, form', same => by
      cases Value.looksLike same with | @list _ items' _ _ parts place =>
      have others := substitutedAll machines onward items parts
      have unquotes := unquoted?_same parts
      rw [Machine.substituted, Machine.substituted]
      generalize unquoted? items = o, unquoted? items' = o' at unquotes ⊢
      cases unquotes with
      | some inner => exact machines.evaluateNow c inner onward
      | none => exact others.bind fun values => .pure (by simp [values, place])
  | .vector items, _, same => by
      cases Value.looksLike same with | vector parts =>
      exact (substitutedAll machines onward items parts).bind fun values =>
        .pure (by simp [values])
  | .set items, _, same => by
      cases Value.looksLike same with | set parts =>
      refine (substitutedAll machines onward items parts).bind fun {found found'} values => ?_
      rw [(forall₂_of_map_eq values).length_eq]
      exact (Run.Agree.arrangementIf _).bindEq fun a =>
        .pure (by rw [← Value.setOf_seen, values, Value.setOf_seen])
  | .map entries, _, same => by
      cases Value.looksLike same with | map parts =>
      refine (substitutedEntries machines onward entries parts).bind
        fun {found found'} values => ?_
      rw [(forall₂_of_map_eq values).length_eq]
      exact (Run.Agree.arrangementIf _).bindEq fun a =>
        .pure (by rw [← Value.mapOf_seen, values, Value.mapOf_seen])
  | .nil, _, same | .bool _, _, same | .int _, _, same | .float _, _, same | .char _, _, same
  | .string _, _, same | .symbol _, _, same | .keyword _, _, same | .function _, _, same
  | .expander _, _, same | .node _, _, same | .type _, _, same => by
      cases Value.looksLike same
      exact .pure same
termination_by structural form => form

/-- Several forms are substituted alike, by the first and the others. -/
theorem substitutedAll (machines : m.Respects V) (onward : k.seen V = k'.seen V)
    : ∀ (forms : List Value) {forms' : List Value},
        forms.map (Value.seen V) = forms'.map (Value.seen V)
        → Agree V (List.map (Value.seen V)) (m.substitutedAll c k forms)
          (m.substitutedAll c k' forms')
  | [], _, same => by
      cases forall₂_of_map_eq same
      exact .pure rfl
  | form :: rest, _, same => by
      cases forall₂_of_map_eq same with | cons first others =>
      refine (substituted machines onward form first).bind fun value => ?_
      have later := substitutedAll machines onward rest (map_eq_of_forall₂ others)
      exact (later.holdingOne value).bind fun values => .pure (by simp [value, values])
termination_by structural forms => forms

/-- So are the keys and values of entries. -/
theorem substitutedEntries (machines : m.Respects V) (onward : k.seen V = k'.seen V)
    : ∀ (entries : List (Value × Value)) {entries' : List (Value × Value)},
        entries.map (seenEntry V) = entries'.map (seenEntry V)
        → Agree V (List.map (seenEntry V)) (m.substitutedEntries c k entries)
          (m.substitutedEntries c k' entries')
  | [], _, same => by
      cases forall₂_of_map_eq same
      exact .pure rfl
  | (key, value) :: rest, _, same => by
      cases forall₂_of_map_eq same with | @cons _ entry _ _ first others =>
      obtain ⟨keys, values⟩ := Prod.mk.inj first
      refine (substituted machines onward key keys).bind fun keys => ?_
      have valued := substituted machines onward value values
      refine (valued.holdingOne keys).bind fun values => ?_
      have later := substitutedEntries machines onward rest (map_eq_of_forall₂ others)
      refine (later.holdingSeen ?_).bind fun entries => .pure ?_
      · simp only [List.map_cons, List.map_nil, keys, values]
      · rw [List.map_cons, List.map_cons, entries]
        simp [keys, values]
termination_by structural entries => entries

end

variable {form form' : Value} (same : form.seen V = form'.seen V)
  {items items' : List Value} (parts : List.Forall₂ (fun v w => v.seen V = w.seen V) items items')
include same parts

/-- Quoted forms that are seen alike expand alike, by their substitution. -/
theorem expandQuote (isSyntax : Bool)
    : Agree V (Node.seen V) (m.expandQuote isSyntax c form items k)
        (m.expandQuote isSyntax c form' items' k') := by
  rcases parts with _ | ⟨_, _ | ⟨quoted, _ | ⟨_, _⟩⟩⟩
  case cons.cons.nil =>
    exact (machines.substituted c onward _ quoted).bind fun values => .pure (by simp [values])
  all_goals exact .expansionError same _

/-- So do unquoted forms, which are evaluated at once. -/
theorem expandUnquote
    : Agree V (Node.seen V) (m.expandUnquote c form items k)
        (m.expandUnquote c form' items' k') := by
  rcases parts with _ | ⟨_, _ | ⟨inner, _ | ⟨_, _⟩⟩⟩
  case cons.cons.nil =>
    exact (machines.evaluateNow c inner onward).bind fun values =>
      .pure (congrArg Node.constant values)
  all_goals exact .expansionError same _

end Quoting

-----------------------------------------------------------------------------------------
-- Expanders
-----------------------------------------------------------------------------------------

section Expanders

include machines

variable (c : ContextId) {form form' : Value} (same : form.seen V = form'.seen V)
  {items items' : List Value} (parts : List.Forall₂ (fun v w => v.seen V = w.seen V) items items')
  {k k' : Expander} (onward : k.seen V = k'.seen V)
include onward

include same parts in
/-- Special forms respect the view. Witness: case analysis on the special form. -/
theorem expandSpecialList (f : SpecialForm)
    : Agree V (Node.seen V) (m.expandSpecialList f c form items k)
        (m.expandSpecialList f c form' items' k') := by
  have rest : List.Forall₂ (fun v w => v.seen V = w.seen V) items.tail items'.tail := by
    rw [← List.drop_one, ← List.drop_one]
    exact List.forall₂_drop 1 parts
  have nodes (shape : List Node → Shape)
      (shapes
        : ∀ {ns ns' : List Node}, ns.map (Node.seen V) = ns'.map (Node.seen V)
          → (shape ns).seen V = (shape ns').seen V)
      : Agree V (Node.seen V) (do return .of (shape (← m.expandAll c items.tail k)))
          (do return .of (shape (← m.expandAll c items'.tail k'))) :=
    (machines.expandAll c rest onward).bind fun nodes => .pure (by simp [shapes nodes])
  cases f with
  | define => exact machines.expandDefine c same parts onward
  | defineFunction => exact machines.expandDefineFunction c same parts onward
  | function => exact machines.expandFunction c same parts onward
  | sequence => exact nodes .sequence fun same => by simp [same]
  | conditional => exact machines.expandConditional c same parts onward
  | binding => exact machines.expandBinding c same parts onward
  | quote => exact machines.expandQuote c onward same parts false
  | syntaxQuote => exact machines.expandQuote c onward same parts true
  | unquote => exact machines.expandUnquote c onward same parts
  | macroLiteral => exact machines.expandMacroLiteral c same parts onward
  | defineMacro => exact machines.expandDefineMacro c same parts onward
  | expanderLiteral => exact machines.expandExpanderLiteral c same parts onward
  | member => exact machines.expandMember c same parts onward
  | cast => exact machines.expandCast c same parts onward
  | instanceOf => exact machines.expandInstanceOf c same parts onward
  | vector => exact nodes .vector fun same => by simp [same]
  | list => exact nodes .list fun same => by simp [same]
  | set => exact nodes .set fun same => by simp [same]
  | hashMap => exact machines.expandHashMap c same parts onward
  | enterSpace => exact expandEnterSpace same parts

include same

/-- Forms under any special form expand alike, by the theorem about that form. -/
theorem expandSpecial (f : SpecialForm)
    : Agree V (Node.seen V) (m.expandSpecial f c form k) (m.expandSpecial f c form' k') := by
  cases Value.looksLike same with
  | list parts place =>
      have node := machines.expandSpecialList c same (forall₂_of_map_eq parts) onward f
      exact node.bind fun nodes => .pure (by rw [← Node.locatedAt_seen, nodes, place,
        Node.locatedAt_seen])
  | _ => exact .expansionError same _

/-- So do forms that an expander has finished with, by whether they are nodes or other forms. -/
theorem finish
    : Agree V (Node.seen V) (m.finish c form k) (m.finish c form' k') := by
  cases Value.looksLike same with
  | node nodes => exact .pure nodes
  | _ => exact machines.expand c onward same onward

/-- Expanders of users that are seen alike expand alike: their bodies agree under frames that are
seen alike.
-/
theorem expandUser {u u' : UserExpander} (users : u.seen V = u'.seen V)
    : Agree V (Node.seen V) (m.expandUser u c form k) (m.expandUser u' c form' k') := by
  have params : u.params = u'.params := by rw [← u.params_seen, users, u'.params_seen]
  have bodies : u.body.seen V = u'.body.seen V := by rw [← u.body_seen, users, u'.body_seen]
  cases Value.looksLike same with
  | @list items items' _ _ parts _ =>
      have count : items.length = items'.length := (forall₂_of_map_eq parts).length_eq
      have args : items.tail.map (Value.seen V) = items'.tail.map (Value.seen V) := by
        rw [List.map_tail, parts, List.map_tail]
      unfold Machine.expandUser
      dsimp only
      rw [count, params]
      split
      · exact .fail rfl
      · refine (machines.compute bodies (UserExpander.frame_same users onward args) c).bind
          fun values => ?_
        exact machines.finish c values onward
  | _ => exact .expansionError same _

/-- So do macros: their bodies agree on the arguments, and what they return is finished alike. -/
theorem expandMacro {f f' : Macro} (macros : f.seen V = f'.seen V)
    : Agree V (Node.seen V) (m.expandMacro f c form k) (m.expandMacro f' c form' k') := by
  have functions : (Value.function f.function).seen V = (Value.function f'.function).seen V := by
    rw [Value.seen, Value.seen, ← f.function_seen, macros, f'.function_seen]
  cases Value.looksLike same with
  | @list items items' _ _ parts _ =>
      have args : items.tail.map (Value.seen V) = items'.tail.map (Value.seen V) := by
        rw [List.map_tail, parts, List.map_tail]
      refine (machines.call c functions args).bind fun values => ?_
      exact machines.finish c values onward
  | _ => exact .expansionError same _

omit same onward in
/-- To look up the expander of a symbol agrees, since its slot is seen alike. -/
theorem expanderBound? (s : Symbol)
    : Agree V (Option.map (Expander.seen V)) (m.expanderBound? c s) (m.expanderBound? c s) := by
  refine (machines.slot? c s).bind fun {o o'} slots => ?_
  cases rel_of_map_eq slots with
  | none => exact .pure rfl
  | some same =>
      refine (machines.force c same).bind fun values => ?_
      cases Value.looksLike values with
      | expander same => exact .pure (congrArg some same)
      | _ => exact .pure rfl

omit machines in
/-- Both sides go on with expanders that are seen alike. -/
theorem continuationFor {e e' : Expander} (expanders : e.seen V = e'.seen V)
    : Agree V (Expander.seen V) (continuationFor e form k)
        (Machine.continuationFor e' form' k') := by
  have descended : seenEnd V (Expander.seen V) (k.descended form)
      = seenEnd V (Expander.seen V) (k'.descended form') := by
    rw [← Expander.descended_seen, onward, same, Expander.descended_seen]
  cases e <;> cases e' <;> simp at expanders
  case form.form => exact .pure onward
  all_goals exact .ofExcept descended

omit same in
/-- Calls expand alike, by the callee and the arguments. -/
theorem expandCall {head head' : Value} (heads : head.seen V = head'.seen V)
    (args : List.Forall₂ (fun v w => v.seen V = w.seen V) items items')
    {source source' : Option Location} (places : V.source source = V.source source')
    : Agree V (Node.seen V) (m.expandCall c head items source k)
        (m.expandCall c head' items' source' k') := by
  refine (machines.expand c onward heads onward).bind fun functions => ?_
  have spread := machines.expandAll c args onward
  refine (spread.holdingNode functions).bind fun nodes => .pure ?_
  rw [← Node.locatedAt_seen, ← Node.locatedAt_seen, places]
  simp [functions, nodes]

include parts in
/-- Lists expand alike, by the expander that the head is bound to, if any. -/
theorem expandList {source source' : Option Location} (places : V.source source = V.source source')
    : Agree V (Node.seen V) (m.expandList c form items source k)
        (m.expandList c form' items' source' k') := by
  have call (name : String)
      : seenEnd V (Value.seen V) (memberCall name form items source)
        = seenEnd V (Value.seen V) (memberCall name form' items' source') := by
    rw [← memberCall_seen, same, map_eq_of_forall₂ parts, places, memberCall_seen]
  rcases parts with _ | ⟨head, args⟩
  · exact .pure (congrArg Node.constant same)
  · cases Value.looksLike head with
    | symbol s =>
        refine (machines.expanderBound? c s).bind fun {o o'} bound => ?_
        cases rel_of_map_eq bound with
        | some expanders =>
            refine (continuationFor same onward expanders).bind fun onward => ?_
            exact (machines.expand c expanders same onward).bind fun nodes =>
              .pure (by rw [← Node.including_seen, nodes, Node.including_seen])
        | none =>
            dsimp only
            cases memberCalled? s with
            | some name =>
                exact (Run.Agree.ofExcept (call name)).bind fun forms =>
                  machines.expand c onward forms onward
            | none => exact machines.expandCall c onward head args places
    | _ => exact machines.expandCall c onward head args places

/-- So do forms in the initial expander, by their cases. -/
theorem expandInitial
    : Agree V (Node.seen V) (m.expandInitial c form k) (m.expandInitial c form' k') := by
  cases Value.looksLike same with
  | list parts place =>
      exact machines.expandList c same (forall₂_of_map_eq parts) onward place
  | vector parts | set parts =>
      exact (machines.expandAll c (forall₂_of_map_eq parts) onward).bind fun nodes =>
        .pure (by simp [nodes])
  | map entries =>
      exact (machines.expandEntries c onward entries).bind fun nodes => .pure (by simp [nodes])
  | node nodes => exact .pure nodes
  | symbol s => exact .pure rfl
  | _ => exact .pure (congrArg Node.constant same)

/-- Expansion respects the view. Witness: case analysis on the expander. -/
theorem expandForm {e e' : Expander} (expanders : e.seen V = e'.seen V)
    : Agree V (Node.seen V) (m.expandForm e c form k) (m.expandForm e' c form' k') := by
  cases e <;> cases e' <;> simp at expanders
  case initial.initial => exact machines.expandInitial c same onward
  case form.form =>
    subst expanders
    exact machines.expandSpecial c same onward _
  case ofUser.ofUser => exact machines.expandUser c same onward expanders
  case ofMacro.ofMacro => exact machines.expandMacro c same onward expanders

end Expanders

end Machine.Respects

end IncrementalLisp
