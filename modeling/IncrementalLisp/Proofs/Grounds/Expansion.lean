import IncrementalLisp.Proofs.Grounds.Machine

/-! The expanders leave no dangling references, on a machine whose activities do not: the node of
a form refers to no contexts but those of the form, of the expanders, and of what was computed.
-/

namespace IncrementalLisp

/-- The node of a list of nodes as one refers to what they refer to. -/
theorem among_sequenceOfBody {N : Nat} {body : List Node}
    (older : Among (· < N) (contextsOfNodes body))
    : Among (· < N) (sequenceOfBody body).contexts := by
  unfold sequenceOfBody
  split
  · rw [contextsOfNodes, among_append] at older
    exact older.1
  · rw [Node.contexts_of]
    exact older

/-- An unquoted form refers to no more than the list that unquotes it, as one of its items. -/
theorem among_unquoted? {N : Nat} {items : List Value} {inner : Value}
    (older : Among (· < N) (contextsOfAll items)) (found : unquoted? items = some inner)
    : Among (· < N) inner.contexts := by
  unfold unquoted? at found
  split at found
  · split at found
    · obtain rfl := Option.some.inj found
      rw [contextsOfAll, contextsOfAll, among_append, among_append] at older
      exact older.2.1
    · cases found
  · cases found

/-- The frame of a user's expander refers to what the expander, its continuation and its arguments
do.
-/
theorem UserExpander.among_frame {N : Nat} {u : UserExpander} {k : Expander} {args : List Value}
    (older : Among (· < N) u.contexts) (cont : Among (· < N) k.contexts)
    (values : Among (· < N) (contextsOfAll args))
    : Among (· < N) (contextsOfBindings (u.frame k args)) := by
  rw [UserExpander.contexts_eq, among_append] at older
  have expander : Among (· < N) (Value.expander k).contexts := cont
  exact among_bound (among_insert older.2 u.continuation expander) values u.params

namespace Machine

open Run

variable {m : Machine} (grounded : m.Grounded) {n : Nat} {c : ContextId} {k : Expander}
  (here : c < n) (cont : Among (· < n) k.contexts)

-----------------------------------------------------------------------------------------
-- Parts of forms
-----------------------------------------------------------------------------------------

section Parts

include grounded here cont

/-- The nodes that forms expand to refer only to contexts there are, each by its own expansion. -/
theorem Grounded.expandAll {forms : List Value} (older : Among (· < n) (contextsOfAll forms))
    : (m.expandAll c forms k).Grounds n (fun N ns => Among (· < N) (contextsOfNodes ns)) := by
  rw [among_contextsOfAll] at older
  have each : ∀ form ∈ forms, (m.expand k c form k).Grounds n IsNode :=
    fun form listed => grounded.expand cont here (older form listed) cont
  exact (Grounds.gather (R := IsNode) Among.mono each).imp fun _ all =>
    among_contextsOfNodes.mpr all

/-- So do the nodes of the keys and values of entries, as the expansion of all of these. -/
theorem Grounded.expandEntries {entries : List (Value × Value)}
    (older : Among (· < n) (contextsOfEntries entries))
    : (m.expandEntries c entries k).Grounds n (fun N ns => Among (· < N) (contextsOfNodes ns)) := by
  apply grounded.expandAll here cont
  rw [among_contextsOfEntries] at older
  rw [among_contextsOfAll]
  intro v member
  obtain ⟨e, listed, part⟩ := List.mem_flatMap.mp member
  rcases List.mem_cons.mp part with rfl | value
  · exact (older e listed).1
  · rw [List.mem_singleton.mp value]
    exact (older e listed).2

/-- The value of a form that is evaluated at once refers only to contexts there are: it is expanded
and then computed.
-/
theorem Grounded.evaluateNow {form : Value} (older : Among (· < n) form.contexts)
    : (m.evaluateNow c form k).Grounds n IsValue :=
  (grounded.expand cont here older cont).bind fun le node =>
    grounded.compute node (Nat.lt_of_lt_of_le here le) among_nil

/-- To take a name from a form keeps the store grounded, by the cases of the form. -/
theorem Grounded.nameIn {form : Value} (older : Among (· < n) form.contexts) {role : NameRole}
    : (m.nameIn c form k role).Grounds n IsAny := by
  unfold Machine.nameIn
  split
  · exact .pure fun _ _ => trivial
  · split
    · rename_i inner found
      refine (grounded.evaluateNow here cont (among_unquoted? older found)).bind fun _ _ => ?_
      split
      · exact .pure fun _ _ => trivial
      · exact .fail
    · exact .fail
  · exact .fail

/-- To take the parameters from forms keeps the store grounded. Witness: induction on the forms. -/
theorem Grounded.paramsIn {vector : Value} {forms : List Value}
    (older : Among (· < n) (contextsOfAll forms))
    : (m.paramsIn c vector k forms).Grounds n IsAny := by
  induction forms generalizing n with
  | nil => exact .pure fun _ _ => trivial
  | cons item rest ih =>
      rw [contextsOfAll, among_append] at older
      unfold Machine.paramsIn
      split
      · split
        · exact .fail
        · rename_i name more
          have named := older.2
          rw [contextsOfAll, among_append] at named
          refine (grounded.nameIn here cont named.1).bind fun _ _ => ?_
          split
          · exact .pure fun _ _ => trivial
          · exact .fail
      · refine (grounded.nameIn here cont older.1).bind fun le _ => ?_
        refine (ih (Nat.lt_of_lt_of_le here le) (cont.mono le) (older.2.mono le)).bind fun _ _ => ?_
        exact .pure fun _ _ => trivial

/-- So does taking them from a vector, which any other form is not. -/
theorem Grounded.paramsOf {form : Value} (older : Among (· < n) form.contexts)
    : (m.paramsOf c form k).Grounds n IsAny := by
  unfold Machine.paramsOf
  split
  · exact grounded.paramsIn here cont older
  · exact .fail

end Parts

include grounded here in
/-- So does asking for the type that a form names, by the cases of the form and of its value. -/
theorem Grounded.typeNamed? {form : Value}
    : (m.typeNamed? c form).Grounds n IsAny := by
  unfold Machine.typeNamed?
  split
  · split
    · refine (grounded.slot? here).bind fun _ _ => ?_
      split
      · exact .pure fun _ _ => trivial
      · exact Grounds.get.bind fun _ _ => .pure fun _ _ => trivial
    · exact .pure fun _ _ => trivial
  · exact .pure fun _ _ => trivial

-----------------------------------------------------------------------------------------
-- Special forms
-----------------------------------------------------------------------------------------

section SpecialForms

variable {form : Value} {items : List Value} (formed : Among (· < n) form.contexts)
  (parts : ∀ v ∈ items, Among (· < n) v.contexts)

include grounded here cont

include parts in
/-- A definition's node refers only to contexts there are, by its name and its expression. -/
theorem Grounded.expandDefine
    : (m.expandDefine c form items k).Grounds n IsNode := by
  unfold Machine.expandDefine
  split
  · rename_i name expr
    have named : (m.nameIn c name k .definition).Grounds n IsAny :=
      grounded.nameIn here cont (parts name (by simp))
    have valued := grounded.expand cont here (parts expr (by simp)) cont
    exact named.bind fun le _ => (valued.weaken le).bind fun _ node => .pure fun _ le =>
      node.mono le
  · exact .fail

include parts in
/-- So does that of a defined function, by its name, its parameters and its body. -/
theorem Grounded.expandDefineFunction
    : (m.expandDefineFunction c form items k).Grounds n IsNode := by
  unfold Machine.expandDefineFunction
  split
  · rename_i name params body
    apply grounded.expand cont here ?_ cont
    simpa [headedBy] using fun v listed => parts v (List.mem_cons_of_mem _ listed)
  · exact .fail

include parts in
/-- So does that of a function, by its parameters and its body. -/
theorem Grounded.expandFunction
    : (m.expandFunction c form items k).Grounds n IsNode := by
  unfold Machine.expandFunction
  split
  · rename_i params body
    have bound := grounded.paramsOf here cont (parts params (by simp))
    have inner : (m.expandAll c body k).Grounds n _ := grounded.expandAll here cont
      (among_contextsOfAll.mpr fun v listed => parts v (by simp [listed]))
    refine bound.bind fun le _ => (inner.weaken le).bind fun _ nodes => .pure fun _ le => ?_
    exact (among_sequenceOfBody nodes).mono le
  · exact .fail

include parts in
/-- So does that of a conditional, by its test and its branches. -/
theorem Grounded.expandConditional
    : (m.expandConditional c form items k).Grounds n IsNode := by
  unfold Machine.expandConditional
  split
  · rename_i test yes rest
    split
    · exact .fail
    · have tested := grounded.expand cont here (parts test (by simp)) cont
      have accepted := grounded.expand cont here (parts yes (by simp)) cont
      refine tested.bind fun le first => (accepted.weaken le).holding.bind fun le' second => ?_
      have final {N : Nat} {no : Node} (le'' : _ ≤ N) (third : Among (· < N) no.contexts) :=
        show Among (· < N) (Node.of (.conditional _ _ no)).contexts from among_append.mpr
          ⟨among_append.mpr ⟨first.mono (Nat.le_trans le' le''), second.mono le''⟩, third⟩
      split
      · rename_i no others few
        have refused := grounded.expand cont here (parts no (by simp)) cont
        exact (refused.weaken (Nat.le_trans le le')).holding.bind fun le'' third =>
          .pure fun _ more => (final le'' third).mono more
      · exact .pure fun _ le'' => final le'' among_nil
  · exact .fail

/-- The nodes of bindings refer only to contexts there are, each after the name that it is bound to.
-/
theorem Grounded.expandPairs {pairs : List (Value × Value)}
    (olders : ∀ pair ∈ pairs, Among (· < n) pair.1.contexts ∧ Among (· < n) pair.2.contexts)
    : (m.expandPairs c pairs k).Grounds n (fun N ps => Among (· < N) (contextsOfPairs ps)) := by
  have each : ∀ pair ∈ pairs, (m.expandPair c k pair).Grounds n
        (fun N p => Among (· < N) p.2.contexts) := by
    intro pair listed
    have named : (m.nameIn c pair.1 k .binding).Grounds n IsAny :=
      grounded.nameIn here cont (olders pair listed).1
    have valued := grounded.expand cont here (olders pair listed).2 cont
    exact named.bind fun le _ => (valued.weaken le).bind fun _ node => .pure fun _ le =>
      node.mono le
  exact (Grounds.gather (R := fun N p => Among (· < N) p.2.contexts) Among.mono each).imp
    fun _ all => among_contextsOfPairs.mpr all

include parts in
/-- The node of bindings around a body refers only to contexts there are, by both. -/
theorem Grounded.expandBinding
    : (m.expandBinding c form items k).Grounds n IsNode := by
  unfold Machine.expandBinding
  split
  · rename_i pairs body
    split
    · exact .fail
    · have vector := parts (.vector pairs) (by simp)
      rw [Value.contexts, among_contextsOfAll] at vector
      have bound : (m.expandPairs c (Value.pairs pairs) k).Grounds n _ :=
        grounded.expandPairs here cont fun pair listed =>
          ⟨vector _ (mem_of_pairs listed).1, vector _ (mem_of_pairs listed).2⟩
      have inner : (m.expandAll c body k).Grounds n _ := grounded.expandAll here cont
        (among_contextsOfAll.mpr fun v listed => parts v (by simp [listed]))
      refine bound.bind fun le pairs => (inner.weaken le).holding.bind fun le' nodes =>
        .pure fun _ le'' => ?_
      exact among_append.mpr ⟨pairs.mono (Nat.le_trans le' le''),
        (among_sequenceOfBody nodes).mono le''⟩
  · exact .fail
  · exact .fail

-----------------------------------------------------------------------------------------
-- Quoting
-----------------------------------------------------------------------------------------

omit grounded here cont in
mutual

/-- A form with values for its unquoted forms refers to what the form and the values refer to.
Witness: induction on the form.
-/
theorem Grounded.substituted (grounded : m.Grounded) (here : c < n)
    (cont : Among (· < n) k.contexts)
    : ∀ {form : Value}, Among (· < n) form.contexts → (m.substituted c k form).Grounds n IsValue
  | .list items _, older => by
      unfold Machine.substituted
      split
      · rename_i inner found
        exact grounded.evaluateNow here cont (among_unquoted? older found)
      · exact (Grounded.substitutedAll grounded here cont older).bind fun _ vs => .pure fun _ le =>
          vs.mono le
  | .vector items, older => by
      unfold Machine.substituted
      exact (Grounded.substitutedAll grounded here cont older).bind fun _ vs => .pure fun _ le =>
        vs.mono le
  | .set items, older => by
      unfold Machine.substituted
      refine (Grounded.substitutedAll grounded here cont older).bind fun _ vs => ?_
      exact Grounds.arrangementIf.bind fun le _ => .pure fun _ le' =>
        among_setOf (vs.mono (Nat.le_trans le le'))
  | .map entries, older => by
      unfold Machine.substituted
      refine (Grounded.substitutedEntries grounded here cont older).bind fun _ es => ?_
      exact Grounds.arrangementIf.bind fun le _ => .pure fun _ le' =>
        among_mapOf (es.mono (Nat.le_trans le le'))
  | .nil, older | .bool _, older | .int _, older | .float _, older | .char _, older
  | .string _, older | .symbol _, older | .keyword _, older | .function _, older
  | .expander _, older | .node _, older | .type _, older => by
      unfold Machine.substituted
      exact .pure fun _ le => older.mono le
termination_by structural form => form

/-- Several forms with values for their unquoted forms refer to what the first one and the others
do.
-/
theorem Grounded.substitutedAll (grounded : m.Grounded) (here : c < n)
    (cont : Among (· < n) k.contexts)
    : ∀ {forms : List Value}, Among (· < n) (contextsOfAll forms)
        → (m.substitutedAll c k forms).Grounds n AreValues
  | [], _ => by
      unfold Machine.substitutedAll
      exact .pure fun _ _ => among_nil
  | form :: rest, older => by
      rw [contextsOfAll, among_append] at older
      unfold Machine.substitutedAll
      have first := Grounded.substituted grounded here cont older.1
      have others := Grounded.substitutedAll grounded here cont older.2
      exact first.bind fun le v => (others.weaken le).holding.bind fun le' vs =>
        .pure fun _ le'' => among_append.mpr ⟨v.mono (Nat.le_trans le' le''), vs.mono le''⟩
termination_by structural forms => forms

/-- Entries with values for their unquoted forms do, by the key, the value and the other entries. -/
theorem Grounded.substitutedEntries (grounded : m.Grounded) (here : c < n)
    (cont : Among (· < n) k.contexts)
    : ∀ {entries : List (Value × Value)}, Among (· < n) (contextsOfEntries entries)
        → (m.substitutedEntries c k entries).Grounds n
            (fun N es => Among (· < N) (contextsOfEntries es))
  | [], _ => by
      unfold Machine.substitutedEntries
      exact .pure fun _ _ => among_nil
  | (key, value) :: rest, older => by
      rw [contextsOfEntries, among_append, among_append] at older
      unfold Machine.substitutedEntries
      have keyed := Grounded.substituted grounded here cont older.1.1
      have valued := Grounded.substituted grounded here cont older.1.2
      have others := Grounded.substitutedEntries grounded here cont older.2
      refine keyed.bind fun le v => (valued.weaken le).holding.bind fun le' w => ?_
      have later := others.weaken (Nat.le_trans le le')
      refine later.holding.bind fun le'' es => .pure fun _ more => ?_
      have first := v.mono (Nat.le_trans le' (Nat.le_trans le'' more))
      have second := w.mono (Nat.le_trans le'' more)
      exact among_append.mpr ⟨among_append.mpr ⟨first, second⟩, es.mono more⟩
termination_by structural entries => entries

end

include parts in
/-- The constant that a quoted form becomes refers only to contexts there are, by its substitution.
-/
theorem Grounded.expandQuote {isSyntax : Bool}
    : (m.expandQuote isSyntax c form items k).Grounds n IsNode := by
  unfold Machine.expandQuote
  split
  · rename_i quoted
    exact (grounded.substituted here cont (parts quoted (by simp))).bind fun _ v =>
      .pure fun _ le => v.mono le
  · exact .fail

include parts in
/-- So does that of an unquoted form, which is evaluated at once. -/
theorem Grounded.expandUnquote
    : (m.expandUnquote c form items k).Grounds n IsNode := by
  unfold Machine.expandUnquote
  split
  · rename_i inner
    exact (grounded.evaluateNow here cont (parts inner (by simp))).bind fun _ v =>
      .pure fun _ le => v.mono le
  · exact .fail

-----------------------------------------------------------------------------------------
-- Macros and expanders
-----------------------------------------------------------------------------------------

include parts in
/-- So does the node of a macro, by its parameters and its body. -/
theorem Grounded.expandMacroLiteral
    : (m.expandMacroLiteral c form items k).Grounds n IsNode := by
  unfold Machine.expandMacroLiteral
  split
  · rename_i params body
    split
    · exact .fail
    · have bound := grounded.paramsOf here cont (parts params (by simp))
      have inner : (m.expandAll c body k).Grounds n _ := grounded.expandAll here cont
        (among_contextsOfAll.mpr fun v listed => parts v (by simp [listed]))
      refine bound.bind fun le _ => (inner.weaken le).bind fun le' nodes => ?_
      have there := Nat.lt_of_lt_of_le here (Nat.le_trans le le')
      refine Grounds.bind (grounded.compute (among_sequenceOfBody nodes) there ?_) fun _ v => ?_
      · exact among_nil
      split
      · exact Grounds.newIdentity.bind fun le _ => .pure fun _ le' => by
          rw [IsNode, Node.contexts_of, Shape.contexts, Value.contexts, Expander.contexts,
            Macro.contexts_eq]
          exact v.mono (Nat.le_trans le le')
      · exact .fail
  · exact .fail

include parts in
/-- So does that of a defined macro, as the definition that it stands for. -/
theorem Grounded.expandDefineMacro
    : (m.expandDefineMacro c form items k).Grounds n IsNode := by
  unfold Machine.expandDefineMacro
  split
  · apply grounded.expand cont here ?_ cont
    simpa [headedBy] using fun v listed => parts v (List.mem_cons_of_mem _ listed)
  · exact .fail

include parts in
/-- So does that of an expander, by its names, its parameters and its body. -/
theorem Grounded.expandExpanderLiteral
    : (m.expandExpanderLiteral c form items k).Grounds n IsNode := by
  unfold Machine.expandExpanderLiteral
  split
  · rename_i continuation params body
    have header := parts (.vector [continuation, params]) (by simp)
    rw [Value.contexts, among_contextsOfAll] at header
    have named : (m.nameIn c continuation k .continuation).Grounds n IsAny :=
      grounded.nameIn here cont (header continuation (by simp))
    have bound := grounded.paramsOf here cont (header params (by simp))
    have inner : (m.expandAll c body k).Grounds n _ := grounded.expandAll here cont
      (among_contextsOfAll.mpr fun v listed => parts v (by simp [listed]))
    refine named.bind fun le _ => (bound.weaken le).bind fun {_ found} le' _ => ?_
    obtain ⟨names, rest⟩ := found
    dsimp only
    split
    · exact .fail
    · refine (inner.weaken (Nat.le_trans le le')).bind fun _ nodes => .pure fun _ le => ?_
      exact (among_sequenceOfBody nodes).mono le
  · exact .fail
  · exact .fail

-----------------------------------------------------------------------------------------
-- Host operations
-----------------------------------------------------------------------------------------

omit grounded here cont in
/-- The parts of a member call are forms that it was given, or the items of one. -/
theorem among_memberParts {member : Value} {more : List Value}
    (older : Among (· < n) member.contexts)
    (rest : ∀ v ∈ more, Among (· < n) v.contexts)
    : ∀ v ∈ memberParts member more, Among (· < n) v.contexts := by
  unfold memberParts
  split
  · rwa [Value.contexts, among_contextsOfAll] at older
  · intro v listed
    rcases List.mem_cons.mp listed with rfl | later
    · exact older
    · exact rest v later

/-- The call of a member with some arguments refers only to contexts there are, by its target and
them.
-/
theorem Grounded.expandTarget {target : Value} {name : Symbol} {args : List Node}
    (older : Among (· < n) target.contexts) (values : Among (· < n) (contextsOfNodes args))
    : (m.expandTarget c target name args k).Grounds n IsNode := by
  unfold Machine.expandTarget
  have targeted := grounded.expand cont here older cont
  refine (grounded.typeNamed? here).bind fun le _ => ?_
  split
  · exact .pure fun _ le' => values.mono (Nat.le_trans le le')
  · refine (targeted.weaken le).bind fun le' node => .pure fun _ more => ?_
    exact among_append.mpr ⟨node.mono more, values.mono (Nat.le_trans le (Nat.le_trans le' more))⟩

/-- So does that of a member which is the first of some forms, with the others as arguments. -/
theorem Grounded.expandMemberCall {target : Value} {call : List Value}
    (older : Among (· < n) target.contexts) (called : ∀ v ∈ call, Among (· < n) v.contexts)
    : (m.expandMemberCall c form target call k).Grounds n IsNode := by
  unfold Machine.expandMemberCall
  split
  · exact .fail
  · rename_i name args
    have values : (m.expandAll c args k).Grounds n _ := grounded.expandAll here cont
      (among_contextsOfAll.mpr fun v listed => called v (by simp [listed]))
    refine values.bind fun le nodes => ?_
    have there := Nat.lt_of_lt_of_le here le
    exact (grounded.expandTarget there (cont.mono le) (older.mono le) nodes).holding
  · exact .fail

include parts in
/-- So does what a member form stands for, by the cases of the member that it names. -/
theorem Grounded.expandMember
    : (m.expandMember c form items k).Grounds n IsNode := by
  unfold Machine.expandMember
  split
  · rename_i target member more
    refine grounded.expandMemberCall here cont (parts target (by simp)) ?_
    exact among_memberParts (parts member (by simp)) fun v listed => parts v (by simp [listed])
  · exact .fail

include parts in
/-- So does a cast, by its type and its expression. -/
theorem Grounded.expandCast
    : (m.expandCast c form items k).Grounds n IsNode := by
  unfold Machine.expandCast
  split
  · rename_i type expr
    have valued := grounded.expand cont here (parts expr (by simp)) cont
    have final {N : Nat} {name : String} (le : n ≤ N)
        : (do return .of (.cast name (← m.expand k c expr k)) : Run Node).Grounds N IsNode :=
      (valued.weaken le).bind fun _ node => .pure fun _ le => node.mono le
    refine (grounded.typeNamed? here).bind fun le _ => ?_
    split
    · exact final le
    · have evaluated := grounded.evaluateNow here cont (parts type (by simp))
      refine (evaluated.weaken le).bind fun le' _ => ?_
      split
      · exact final (Nat.le_trans le le')
      · exact .fail
  · exact .fail

include parts in
/-- So does a test for a type, by its type and its expression. -/
theorem Grounded.expandInstanceOf
    : (m.expandInstanceOf c form items k).Grounds n IsNode := by
  unfold Machine.expandInstanceOf
  split
  · rename_i type expr
    have valued := grounded.expand cont here (parts expr (by simp)) cont
    have typed := grounded.expand cont here (parts type (by simp)) cont
    have final {N : Nat} {type : Node} (le : n ≤ N) (older : Among (· < N) type.contexts)
        : (do
            let expr ← Run.holding [.node type] (m.expand k c expr k)
            return .of (.instanceOf type expr) : Run Node).Grounds N IsNode :=
      (valued.weaken le).holding.bind fun le' node =>
        .pure fun _ le'' => among_append.mpr ⟨older.mono (Nat.le_trans le' le''), node.mono le''⟩
    refine (grounded.typeNamed? here).bind fun le _ => ?_
    split
    · exact final le among_nil
    · exact (typed.weaken le).bind fun le' node => final (Nat.le_trans le le') node
  · exact .fail

end SpecialForms

end Machine
end IncrementalLisp
