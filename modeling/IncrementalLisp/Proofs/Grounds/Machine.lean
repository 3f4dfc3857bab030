import IncrementalLisp.Proofs.Grounds.Run

/-! The evaluator, the calls and the computing of slots leave no dangling references, on a machine
whose activities do not.
-/

namespace IncrementalLisp

/-- A machine that leaves no dangling references when it is given none. -/
structure Machine.Grounded (m : Machine) : Prop where
  eval
    : ∀ {n : Nat} {node : Node} {c : ContextId} {b : Bindings}, Among (· < n) node.contexts → c < n
        → Among (· < n) (contextsOfBindings b) → (m.eval node c b).Grounds n Run.IsResult
  call
    : ∀ {n : Nat} {callee : Value} {args : List Value} {c : ContextId},
      Among (· < n) callee.contexts
        → Among (· < n) (contextsOfAll args) → c < n → (m.call callee args c).Grounds n Run.IsValue
  force
    : ∀ {n : Nat} {slot : Slot} {c : ContextId}, slot.owner < n → Among (· < n) slot.contexts →
      c < n
        → (m.force slot c).Grounds n Run.IsValue
  expand
    : ∀ {n : Nat} {e k : Expander} {c : ContextId} {form : Value}, Among (· < n) e.contexts → c < n
        → Among (· < n) form.contexts → Among (· < n) k.contexts
        → (m.expand e c form k).Grounds n Run.IsNode

/-- (IsSlot N slot) says that the slot belongs and refers to the first contexts only. -/
abbrev Run.IsSlot (N : Nat) (slot : Slot)
    : Prop :=
  slot.owner < N ∧ Among (· < N) slot.contexts

namespace Machine

open Run

variable {m : Machine} (grounded : m.Grounded) {n : Nat} {c : ContextId} {b : Bindings}

include grounded

/-- A node's value refers only to contexts there are if what it ends with does. -/
theorem Grounded.compute {node : Node} (older : Among (· < n) node.contexts) (here : c < n)
    (bound : Among (· < n) (contextsOfBindings b))
    : (m.compute node c b).Grounds n IsValue :=
  (grounded.eval older here bound).bind fun _ result => .pure fun _ le => result.1.mono le

/-- So do the values of several nodes, one after the other. -/
theorem Grounded.computeAll {nodes : List Node} (older : Among (· < n) (contextsOfNodes nodes))
    (here : c < n) (bound : Among (· < n) (contextsOfBindings b))
    : (m.computeAll nodes c b).Grounds n AreValues := by
  rw [among_contextsOfNodes] at older
  have each : ∀ node ∈ nodes, (m.compute node c b).Grounds n IsValue :=
    fun node listed => grounded.compute (older node listed) here bound
  exact (Grounds.gather (R := IsValue) Among.mono each).imp fun _ all => among_contextsOfAll.mpr all

-----------------------------------------------------------------------------------------
-- Names
-----------------------------------------------------------------------------------------

omit grounded in
/-- A slot of a context of a grounded store belongs and refers to contexts of the store. -/
theorem isSlot_of_finds {st : Store} (rooted : st.Grounded) {slot : Slot} (found : st.Finds c slot)
    : IsSlot st.contexts.size slot :=
  ⟨rooted.owned found, (rooted.slot found).mono (Nat.le_of_lt (rooted.owned found))⟩

/-- To ask for the current namespace keeps the store grounded, by the slot that tells it. -/
theorem Grounded.currentSpace (here : c < n)
    : (m.currentSpace c).Grounds n IsAny := by
  intro scope st rooted enough
  unfold Machine.currentSpace
  rw [outcome_bind, outcome_context]
  dsimp only
  split
  · exact ⟨rooted, Nat.le_refl _, fun _ _ => trivial⟩
  · rename_i slot stored
    obtain ⟨owned, older⟩ := isSlot_of_finds rooted ⟨_, stored⟩
    have forced := (grounded.force owned older (Nat.lt_of_lt_of_le here enough)).attempt
    refine forced.bind (fun _ _ => ?_) scope st rooted (Nat.le_refl _)
    split <;> exact .pure fun _ _ => trivial

/-- So does qualifying a symbol, which may ask for the namespace. -/
theorem Grounded.qualify (here : c < n) {s : Symbol}
    : (m.qualify c s).Grounds n IsAny := by
  unfold Machine.qualify
  split
  · exact .pure fun _ _ => trivial
  · exact (grounded.currentSpace here).bind fun _ _ => .pure fun _ _ => trivial

/-- A slot that is looked up refers only to contexts there are, since it is stored in one of them.
-/
theorem Grounded.slot? (here : c < n) {s : Symbol}
    : (m.slot? c s).Grounds n (fun N o => ∀ slot, o = some slot → IsSlot N slot) := by
  have looked {n : Nat} {o : Context → Option Slot}
      (from_ : ∀ context slot, o context = some slot → ∃ k : Symbol, context.slots[k]? = some slot)
      : (do return o (← Run.context c) : Run (Option Slot)).Grounds n
          (fun N o => ∀ slot, o = some slot → IsSlot N slot) := by
    intro scope st rooted _
    refine ⟨rooted, Nat.le_refl _, ?_⟩
    rintro _ ⟨⟩ slot found
    exact isSlot_of_finds rooted (from_ _ slot found)
  unfold Machine.slot?
  split
  · exact looked fun _ _ found => ⟨_, found⟩
  · refine (grounded.currentSpace here).bind fun _ _ => looked fun context slot found => ?_
    rcases Option.or_eq_some_iff.mp found with near | ⟨_, core⟩
    · exact ⟨_, near⟩
    · exact ⟨_, core⟩

/-- So does the value of a symbol, as the value of the slot that was found. -/
theorem Grounded.valueOf (here : c < n) {s : Symbol}
    : (m.valueOf c s).Grounds n IsValue := by
  unfold Machine.valueOf
  refine (grounded.slot? here).bind fun le held => ?_
  split
  · obtain ⟨owned, older⟩ := held _ rfl
    exact grounded.force owned older (Nat.lt_of_lt_of_le here le)
  · exact (grounded.qualify (Nat.lt_of_lt_of_le here le)).bind fun _ _ => .fail

/-- A definition ends in a context that there is then, which keeps the store grounded. -/
theorem Grounded.define (here : c < n) {s : Symbol} {node : Node}
    (older : Among (· < n) node.contexts)
    (bound : Among (· < n) (contextsOfBindings b))
    : (m.define c s node b).Grounds n (fun N d => d < N) := by
  unfold Machine.define
  refine (grounded.currentSpace here).bind fun le _ scope st rooted enough => ?_
  have all := Nat.le_trans le enough
  refine ⟨rooted.define (older.mono all) (bound.mono all), ?_, ?_⟩
  · rw [outcome_modifyGet, Store.size_define]
    exact Nat.le_succ _
  · rintro _ ⟨⟩
    rw [outcome_modifyGet, Store.size_define]
    exact Nat.lt_succ_self _

-----------------------------------------------------------------------------------------
-- Evaluation
-----------------------------------------------------------------------------------------

/-- A sequence ends with a value and a context that there are. Witness: induction on the body. -/
theorem Grounded.evalSequence {body : List Node} {last : Value}
    (older : Among (· < n) (contextsOfNodes body)) (before : Among (· < n) last.contexts)
    (here : c < n)
    (bound : Among (· < n) (contextsOfBindings b))
    : (m.evalSequence body last c b).Grounds n IsResult := by
  induction body generalizing n last c with
  | nil => exact .pure fun _ le => ⟨before.mono le, Nat.lt_of_lt_of_le here le⟩
  | cons node rest ih =>
      rw [contextsOfNodes, among_append] at older
      unfold Machine.evalSequence
      exact (grounded.eval older.1 here bound).holding.bind fun le result =>
        ih (older.2.mono le) result.1 result.2 (bound.mono le)

/-- Bindings end with values and a context that there are. Witness: induction on the pairs. -/
theorem Grounded.evalPairs {outer : Bindings} {pairs : List (Symbol × Node)}
    (older : Among (· < n) (contextsOfPairs pairs)) (here : c < n)
    (around : Among (· < n) (contextsOfBindings outer))
    (bound : Among (· < n) (contextsOfBindings b))
    : (m.evalPairs outer pairs b c).Grounds n
        (fun N result => Among (· < N) (contextsOfBindings result.1) ∧ result.2 < N) := by
  induction pairs generalizing n b c with
  | nil => exact .pure fun _ le => ⟨bound.mono le, Nat.lt_of_lt_of_le here le⟩
  | cons pair rest ih =>
      rw [contextsOfPairs, among_append] at older
      unfold Machine.evalPairs
      exact (grounded.eval older.1 here around).holding.bind fun le result =>
        ih (older.2.mono le) result.2 (around.mono le) (among_insert (bound.mono le) _ result.1)

omit grounded in
/-- A new closure refers only to contexts there are, by its specialized body and what it captured.
-/
theorem grounds_closureOf {params : List Symbol} {rest : Option Symbol} {body : Node}
    (older : Among (· < n) body.contexts) (here : c < n)
    (bound : Among (· < n) (contextsOfBindings b))
    : (closureOf params rest body c b).Grounds n (fun N f => Among (· < N) f.contexts) := by
  have captured := among_eraseAll bound (params ++ rest.toList)
  have inner := Node.among_specialized older captured
  refine Grounds.newIdentity.bind fun le _ => .pure fun N le' => ?_
  have all := Nat.le_trans le le'
  rw [Closure.contexts_eq, among_cons, among_append]
  exact ⟨Nat.lt_of_lt_of_le here all, inner.mono all, captured.mono all⟩

omit grounded in
/-- So does a new expander of a user, by its specialized body and what it captured. -/
theorem grounds_userExpanderOf {continuation : Symbol} {params : List Symbol} {body : Node}
    (older : Among (· < n) body.contexts) (bound : Among (· < n) (contextsOfBindings b))
    : (userExpanderOf continuation params body b).Grounds n
      (fun N u => Among (· < N) u.contexts) := by
  have captured := among_eraseAll bound (params ++ [continuation])
  have inner := Node.among_specialized older captured
  refine Grounds.newIdentity.bind fun le _ => .pure fun N le' => ?_
  have all := Nat.le_trans le le'
  rw [UserExpander.contexts_eq, among_append]
  exact ⟨inner.mono all, captured.mono all⟩

omit grounded in
/-- A result whose context is as it was. -/
theorem isResult_here {N : Nat} {v : Value} (here : c < n) (le : n ≤ N)
    (older : Among (· < N) v.contexts)
    : IsResult N (v, c) :=
  ⟨older, Nat.lt_of_lt_of_le here le⟩

/-- The evaluator makes no dangling references. Witness: by the shape of the node. -/
theorem Grounded.evalNode {node : Node} (older : Among (· < n) node.contexts) (here : c < n)
    (bound : Among (· < n) (contextsOfBindings b))
    : (m.evalNode node c b).Grounds n IsResult := by
  have kept {x : Run Value} (value : x.Grounds n IsValue)
      : (do return (← x, c) : Run (Value × ContextId)).Grounds n IsResult :=
    value.bind fun le older =>
      .pure fun _ le' => isResult_here here (Nat.le_trans le le') (older.mono le')
  have built {items : List Node} {build : List Value → Value}
    (olders : Among (· < n) (contextsOfNodes items))
      (of : ∀ {N vs}, Among (· < N) (contextsOfAll vs) → Among (· < N) (build vs).contexts)
      : (do return (build (← m.computeAll items c b), c) : Run (Value × ContextId)).Grounds n
          IsResult :=
    (grounded.computeAll olders here bound).bind fun le values =>
      .pure fun _ le' => isResult_here here (Nat.le_trans le le') (of (values.mono le'))
  rw [Node.contexts_eq] at older
  unfold Machine.evalNode
  split <;> rename_i shape <;> rw [shape, Shape.contexts] at older
  case h_1 => exact .pure fun _ le => isResult_here here le (older.mono le)
  case h_2 =>
    split
    · rename_i v found
      exact .pure fun _ le => isResult_here here le ((among_of_lexical? bound found).mono le)
    · exact kept (grounded.valueOf here)
  case h_3 =>
    rw [among_append] at older
    refine (grounded.compute older.1 here bound).bind fun le callee => ?_
    have args := (grounded.computeAll older.2 here bound).weaken le
    refine args.holding.bind fun le' values => ?_
    have all := Nat.le_trans le le'
    refine (grounded.call (callee.mono le') values (Nat.lt_of_lt_of_le here all)).bind fun le'' v => ?_
    exact .pure fun _ more =>
      isResult_here here (Nat.le_trans all (Nat.le_trans le'' more)) (v.mono more)
  case h_4 =>
    exact (grounded.define here (Node.among_specialized older bound) bound).bind fun _ added =>
      .pure fun _ le => ⟨among_nil, Nat.lt_of_lt_of_le added le⟩
  case h_5 => exact grounded.evalSequence older among_nil here bound
  case h_6 =>
    rw [among_append, among_append] at older
    refine (grounded.eval older.1.1 here bound).bind fun le result => ?_
    refine (grounded.eval ?_ result.2 (bound.mono le)).holding
    split
    · exact older.1.2.mono le
    · exact older.2.mono le
  case h_7 =>
    rw [among_append] at older
    exact (grounded.evalPairs older.1 here bound bound).bind fun le result =>
      grounded.eval (older.2.mono le) result.2 result.1
  case h_8 =>
    exact (grounds_closureOf older here bound).bind fun le f =>
      .pure fun _ le' => isResult_here here (Nat.le_trans le le') (f.mono le')
  case h_9 =>
    exact (grounds_userExpanderOf older bound).bind fun le u =>
      .pure fun _ le' => isResult_here here (Nat.le_trans le le') (u.mono le')
  case h_10 => exact .pure fun _ le => isResult_here here le (older.mono le)
  case h_11 => exact built older id
  case h_12 => exact built older id
  case h_13 =>
    refine (grounded.computeAll older here bound).bind fun le values => ?_
    refine Grounds.arrangementIf.bind fun le' _ => ?_
    split
    · rename_i v made
      exact .pure fun _ le'' => isResult_here here (Nat.le_trans (Nat.le_trans le le') le'')
        ((among_mapOfItems? values made).mono (Nat.le_trans le' le''))
    · exact .fail
  case h_14 =>
    refine (grounded.computeAll older here bound).bind fun le values => ?_
    exact Grounds.arrangementIf.bind fun le' _ => .pure fun _ le'' =>
      isResult_here here (Nat.le_trans (Nat.le_trans le le') le'')
        ((among_setOf values).mono (Nat.le_trans le' le''))
  case h_15 =>
    rw [among_append] at older
    refine (grounded.compute older.1 here bound).bind fun le target => ?_
    have args := (grounded.computeAll older.2 here bound).weaken le
    refine args.holding.bind fun le' values => ?_
    exact (Grounds.askInvoke (target.mono le') values).bind fun le'' v => .pure fun _ more =>
      isResult_here here (Nat.le_trans (Nat.le_trans le le') (Nat.le_trans le'' more)) (v.mono more)
  case h_16 =>
    refine (grounded.computeAll older here bound).bind fun le values => ?_
    exact (Grounds.askInvokeStatic values).bind fun le' v => .pure fun _ more =>
      isResult_here here (Nat.le_trans le (Nat.le_trans le' more)) (v.mono more)
  case h_17 =>
    refine (grounded.compute older here bound).bind fun le v => ?_
    refine Grounds.get.bind fun le' _ => ?_
    exact (Grounds.ofGives (Host.gives_cast (v.mono le'))).bind fun le'' w => .pure fun _ more =>
      isResult_here here (Nat.le_trans (Nat.le_trans le le') (Nat.le_trans le'' more)) (w.mono more)
  case h_18 =>
    rw [among_append] at older
    refine (grounded.compute older.1 here bound).bind fun le _ => ?_
    split
    · refine ((grounded.compute older.2 here bound).weaken le).bind fun le' _ => ?_
      refine Grounds.get.bind fun le'' _ => .pure fun _ more => ?_
      refine isResult_here here (Nat.le_trans (Nat.le_trans le le') (Nat.le_trans le'' more)) ?_
      exact Value.among_of_plain (Arithmetic.truth_plain _)
    · exact .fail

-----------------------------------------------------------------------------------------
-- Calls
-----------------------------------------------------------------------------------------

omit grounded in
/-- A node as a value refers only to contexts there are: it is its constant, or the node itself. -/
theorem grounds_asValue {node : Node} (older : Among (· < n) node.contexts)
    : node.asValue.Grounds n IsValue := by
  unfold Node.asValue
  split
  · exact .pure fun _ le => older.mono le
  · refine Grounds.newIdentity.bind fun le _ => .pure fun _ le' => ?_
    rw [Node.contexts_eq] at older
    rw [IsValue, Value.contexts, Node.contexts_eq]
    exact older.mono (Nat.le_trans le le')

/-- So does what a closure returns: its body is computed in its context under the frame. -/
theorem Grounded.callClosure {f : Closure} {args : List Value} (older : Among (· < n) f.contexts)
    (values : Among (· < n) (contextsOfAll args))
    : (m.callClosure f args).Grounds n IsValue := by
  have frame := Closure.among_frame older values
  rw [Closure.contexts_eq, among_cons, among_append] at older
  unfold Machine.callClosure
  split
  · exact .fail
  · exact (grounded.compute (Node.among_specialized older.2.1 frame) older.1 frame).insideCall

/-- So does what a function returns that is applied to a list of arguments, if it returns. -/
theorem Grounded.callApply {args : List Value} (values : Among (· < n) (contextsOfAll args))
    (here : c < n)
    : (m.callApply args c).Grounds n (fun N result => ∀ v, result = .ok v →
      Among (· < N) v.contexts) := by
  unfold Machine.callApply
  split
  · refine .pure fun _ _ _ same => ?_
    cases same
  · rename_i f spread ran
    obtain ⟨callee, others⟩ := Primitive.among_spread values ran
    refine (grounded.call callee others here).holding.attempt.bind fun le held => ?_
    split
    · rename_i v
      refine .pure fun _ le' w same => ?_
      rw [← Except.ok.inj same]
      exact (held v rfl).mono le'
    · refine .pure fun _ _ _ same => ?_
      cases same

omit grounded in
/-- What a primitive answers is its value, or the error of its call. -/
theorem grounds_answered {p : Primitive} {result : Except Fault Value}
    : (∀ v, result = .ok v → Among (· < n) v.contexts)
      → (match result with
        | .ok v => (pure v : Run Value)
        | .error fault => Run.fail (.call (.refused p.name fault))).Grounds n IsValue := by
  intro holds
  split
  · exact .pure fun _ le => (holds _ rfl).mono le
  · exact .fail

/-- What a primitive returns refers only to contexts there are, by the cases of those that do more
than compute.
-/
theorem Grounded.callPrimitive {p : Primitive} {args : List Value}
    (values : Among (· < n) (contextsOfAll args)) (here : c < n)
    : (m.callPrimitive p args c).Grounds n IsValue := by
  unfold Machine.callPrimitive
  refine (Grounds.ofExcept (Q := IsAny) fun _ _ _ _ => trivial).bind fun le _ => ?_
  dsimp only
  split
  · exact (grounded.callApply (values.mono le) (Nat.lt_of_lt_of_le here le)).bind
      fun _ held => grounds_answered held
  · refine Grounds.write.bind fun le' _ => ?_
    refine Grounds.arrangementIf.bind fun le'' _ => ?_
    exact grounds_answered
      (Primitive.gives_compute (values.mono (Nat.le_trans (Nat.le_trans le le') le'')))

/-- So does what an expander returns that is called as a function, by its kind. -/
theorem Grounded.callExpander {e : Expander} {args : List Value} (older : Among (· < n) e.contexts)
    (values : Among (· < n) (contextsOfAll args)) (here : c < n)
    : (m.callExpander e args c).Grounds n IsValue := by
  unfold Machine.callExpander
  split
  · rename_i form
    rw [contextsOfAll, among_append] at values
    refine (grounded.expand older here values.1 ?_).bind fun _ node => grounds_asValue node
    split <;> exact among_nil
  · exact .fail

/-- So does what any value returns that is called, by the cases of the callee. -/
theorem Grounded.callValue {callee : Value} {args : List Value}
    (older : Among (· < n) callee.contexts)
    (values : Among (· < n) (contextsOfAll args)) (here : c < n)
    : (m.callValue callee args c).Grounds n IsValue := by
  unfold Machine.callValue
  split
  · exact grounded.callPrimitive values here
  · exact grounded.callClosure older values
  · exact grounded.callExpander older values here
  · exact .fail

-----------------------------------------------------------------------------------------
-- Slots
-----------------------------------------------------------------------------------------

/-- A slot is computed in a context that there is: its owner, its finder or one made for it. -/
theorem Grounded.contextOf {slot : Slot} (owned : slot.owner < n) (here : c < n)
    : (m.contextOf slot c).Grounds n (fun N d => d < N) := by
  have there (living : Bool) : (if living then slot.owner else c) < n := by
    split
    · exact owned
    · exact here
  unfold Machine.contextOf
  refine Grounds.isLiving.bind fun {_ living} le _ => ?_
  dsimp only
  refine (grounded.currentSpace (Nat.lt_of_lt_of_le (there living) le)).bind fun le' _ => ?_
  have within := Nat.lt_of_lt_of_le (there living) (Nat.le_trans le le')
  split
  · exact .pure fun _ le'' => Nat.lt_of_lt_of_le within le''
  · exact grounded.define within among_nil among_nil

/-- The value that a slot computes refers only to contexts there are, by its node and its bindings.
-/
theorem Grounded.computeSlot {slot : Slot} (owned : slot.owner < n)
    (older : Among (· < n) slot.contexts)
    (here : c < n)
    : (m.computeSlot slot c).Grounds n IsValue := by
  rw [Slot.contexts, among_append] at older
  unfold Machine.computeSlot
  split
  · rename_i v constant
    exact .pure fun _ le => (among_of_constant? older.1 constant).mono le
  · exact ((grounded.contextOf owned here).bind fun le there =>
      grounded.compute (older.1.mono le) there (older.2.mono le)).insideSlot

/-- So does the value that it has from then on, known before or computed and remembered. -/
theorem Grounded.forceSlot {slot : Slot} (owned : slot.owner < n)
    (older : Among (· < n) slot.contexts)
    (here : c < n)
    : (m.forceSlot slot c).Grounds n IsValue := by
  intro scope st rooted enough
  unfold Machine.forceSlot
  rw [outcome_bind, outcome_get]
  dsimp only
  split
  · rename_i v known
    refine ⟨rooted, Nat.le_refl _, ?_⟩
    rintro _ ⟨⟩
    exact rooted.value known
  · refine Grounds.bind (grounded.computeSlot owned older here) (fun _ value => ?_) scope st rooted
      enough
    intro scope st rooted enough
    refine ⟨rooted.remember (value.mono enough), Nat.le_refl _, ?_⟩
    rintro _ ⟨⟩
    exact value.mono enough

end Machine
end IncrementalLisp
