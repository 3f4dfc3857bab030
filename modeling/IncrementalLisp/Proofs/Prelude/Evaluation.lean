import IncrementalLisp.Proofs.Prelude.Standing

/-! Evaluation over a library, said of trees: what a node comes to is given by its tree, the values
of lexical names, and how many calls it is inside of and may be. A call of a library function comes
to what its body comes to one call deeper, wherever the function is defined.
-/

namespace IncrementalLisp

open Filter

/-- (scope.At depth limit) says how many calls a computation is inside of, and may be. -/
structure Scope.At (scope : Scope) (depth limit : Nat) : Prop where
  depth : scope.callDepth = depth
  limit : scope.callLimit = limit

/-- To enter a context leaves the depth of calls and its bound. -/
theorem Scope.At.entering {scope : Scope} {depth limit : Nat} (at_ : scope.At depth limit)
    (c : ContextId)
    : (scope.entering c).At depth limit :=
  ⟨by rw [scope.callDepth_entering, at_.depth], by rw [scope.callLimit_entering, at_.limit]⟩

/-- So does having values at hand. -/
theorem Scope.At.holding {scope : Scope} {depth limit : Nat} (at_ : scope.At depth limit)
    (values : List Value)
    : (scope.holding values).At depth limit :=
  ⟨by rw [scope.callDepth_holding, at_.depth], by rw [scope.callLimit_holding, at_.limit]⟩

/-- What a primitive that calls no function answers, where a table that it enlarges is arranged as
given.
-/
def Primitive.answer (p : Primitive) (a : Arrangement) (args : List Value)
    : Except EvalError Value := do
  p.checkArity args
  (p.compute a args).mapError fun fault => .call (.refused p.name fault)

/-- A result that may be an error of the program, as the end of a run. -/
def Halt.ofExcept {α : Type} (result : Except EvalError α)
    : Except Halt α :=
  result.mapError .error

/-- The end of an evaluation that leaves a context as it was, and whose value is one of several
ends.
-/
def leaving (c : ContextId) (R : Except Halt Value → Prop)
    : Except Halt (Value × ContextId) → Prop
  | .ok (v, d) => d = c ∧ R (.ok v)
  | .error h => R (.error h)

/-- (Evaluates base tree c b depth limit R) says that nodes of the tree come to one of several ends
in a context under lexical bindings, and leave the context as it was.
-/
def Evaluates (base : Store) (tree : Node) (c : ContextId) (b : Bindings) (depth limit : Nat)
    (R : Except Halt Value → Prop)
    : Prop :=
  ∀ (n : Node) (scope : Scope), n.tree = tree → scope.At depth limit
    → EndsAmong base (fun m => m.eval n c b) scope (leaving c R)

/-- (EvaluatesAll base trees c b depth limit R) says the same of several nodes, one by one. -/
def EvaluatesAll (base : Store) (trees : List Node) (c : ContextId) (b : Bindings)
    (depth limit : Nat)
    (R : Except Halt (List Value) → Prop)
    : Prop :=
  ∀ (ns : List Node) (scope : Scope), ns.map Node.tree = trees → scope.At depth limit
    → EndsAmong base (fun m => m.computeAll ns c b) scope R

/-- (Calls base callee args depth limit R) says that a call comes to one of several ends. -/
def Calls (base : Store) (callee : Value) (args : List Value) (depth limit : Nat)
    (R : Except Halt Value → Prop)
    : Prop :=
  ∀ (caller : ContextId) (scope : Scope), scope.At depth limit
    → EndsAmong base (fun m => m.call callee args caller) scope R

section Rules

variable {base : Store} {c : ContextId} {b : Bindings} {depth limit : Nat}
  {R S : Except Halt Value → Prop} {v : Value}

/-- A node whose tree evaluates has such values, without the context that it ends in. -/
theorem Evaluates.compute {tree : Node} (evaluates : Evaluates base tree c b depth limit R)
    {n : Node}
    {scope : Scope} (same : n.tree = tree) (at_ : scope.At depth limit)
    : EndsAmong base (fun m => m.compute n c b) scope R := by
  unfold Machine.compute
  exact (evaluates n scope same at_).bind (fun _ holds => .pure holds.2) fun _ failed => failed

/-- A tree evaluates among any weaker results. -/
theorem Evaluates.mono {tree : Node} (evaluates : Evaluates base tree c b depth limit R)
    (weaker : ∀ r, R r → S r)
    : Evaluates base tree c b depth limit S := by
  intro n scope same at_
  refine (evaluates n scope same at_).mono fun r holds => ?_
  cases r with
  | ok result => exact ⟨holds.1, weaker _ holds.2⟩
  | error h => exact weaker _ holds

/-- The evaluation of a node, by what a machine does with its shape. -/
theorem Evaluates.of_evalNode {tree : Node}
    (inner : ∀ (n : Node) (scope : Scope), n.shape.tree = tree.shape → scope.At depth limit
      → EndsAmong base (fun m => m.evalNode n c b) scope (leaving c R))
    : Evaluates base tree c b depth limit R := by
  intro n scope same at_
  refine .succ (x := fun m => m.evalNode n c b) _ (fun _ _ => rfl)
    (inner n ((scope.entering c).holding (.node n :: b.values)) ?_ ((at_.entering c).holding _))
  rw [← n.shape_tree, same]

/-- A constant evaluates to its value, by its shape. -/
theorem Evaluates.constant
    : Evaluates base (.constant v) c b depth limit (· = .ok v) := by
  refine .of_evalNode fun n scope shapes _ => ?_
  change n.shape.tree = .constant v at shapes
  unfold Machine.evalNode
  cases shape : n.shape <;> rw [shape] at shapes <;> cases shapes
  exact .pure ⟨rfl, rfl⟩

/-- A name with a lexical value evaluates to it. -/
theorem Evaluates.lexical {s : Symbol} (bound : b.lexical? s = some v)
    : Evaluates base (.lookup s) c b depth limit (· = .ok v) := by
  refine .of_evalNode fun n scope shapes _ => ?_
  change n.shape.tree = .lookup s at shapes
  unfold Machine.evalNode
  cases shape : n.shape <;> rw [shape] at shapes <;> cases shapes
  simp only [bound]
  exact .pure ⟨rfl, rfl⟩

/-- A conditional evaluates to what the chosen branch does, or fails as its test does. -/
theorem Evaluates.conditional {test yes no : Node} (tested : Evaluates base test c b depth limit R)
    (chosen : ∀ v, R (.ok v)
      → Evaluates base (if v.isTruthy then yes else no) c b depth limit S)
    (failed : ∀ h, R (.error h) → S (.error h))
    : Evaluates base (.of (.conditional test yes no)) c b depth limit S := by
  refine .of_evalNode fun n scope shapes at_ => ?_
  change n.shape.tree = .conditional test yes no at shapes
  unfold Machine.evalNode
  cases shape : n.shape <;> rw [shape] at shapes <;> cases shapes
  refine (tested _ scope rfl at_).bind ?_ failed
  rintro ⟨v, d⟩ ⟨rfl, holds⟩
  dsimp only
  refine EndsAmong.holding (chosen v holds _ _ ?_ (at_.holding [v]))
  split <;> rfl

/-- A sequence of one node evaluates to what the node does. -/
theorem Evaluates.sequence_singleton {tree : Node}
    (evaluates : Evaluates base tree c b depth limit R)
    : Evaluates base (.of (.sequence [tree])) c b depth limit R := by
  refine .of_evalNode fun n scope shapes at_ => ?_
  change n.shape.tree = .sequence [tree] at shapes
  unfold Machine.evalNode
  cases shape : n.shape <;> rw [shape] at shapes <;> try cases shapes
  rename_i body
  have only : body.map Node.tree = [tree] := by
    rw [← treesOf_eq_map]
    exact Shape.sequence.inj shapes
  obtain ⟨n, rfl, same⟩ := List.map_eq_singleton_iff.mp only
  simp only [Machine.evalSequence_singleton]
  exact evaluates n scope same at_

/-- (FindsValue base tree c b depth limit P) says that nodes of the tree come to a value with a
property.
-/
def FindsValue (base : Store) (tree : Node) (c : ContextId) (b : Bindings) (depth limit : Nat)
    (P : Value → Prop)
    : Prop :=
  ∀ (n : Node) (scope : Scope), n.tree = tree → scope.At depth limit
    → Yields base (fun m => m.compute n c b) scope P

/-- A tree that evaluates to a value is one that finds it. -/
theorem Evaluates.finds {tree : Node}
    (evaluates : Evaluates base tree c b depth limit (· = .ok v))
    : FindsValue base tree c b depth limit (· = v) := by
  intro n scope same at_ st standing
  obtain ⟨_, after, rfl, later, came⟩ := evaluates.compute same at_ st standing
  exact ⟨v, after, rfl, later, came⟩

/-- No trees evaluate to no values. -/
theorem EvaluatesAll.nil
    : EvaluatesAll base [] c b depth limit (· = .ok []) := by
  intro ns scope same _
  obtain rfl := List.map_eq_nil_iff.mp same
  exact .pure rfl

/-- Several nodes, from the first and the others. -/
theorem EvaluatesAll.cons {tree : Node} {trees : List Node}
    {Q T : Except Halt (List Value) → Prop} (first : Evaluates base tree c b depth limit R)
    (rest : ∀ v, R (.ok v) → EvaluatesAll base trees c b depth limit Q)
    (holds : ∀ v vs, R (.ok v) → Q (.ok vs) → T (.ok (v :: vs)))
    (failed : ∀ h, R (.error h) ∨ Q (.error h) → T (.error h))
    : EvaluatesAll base (tree :: trees) c b depth limit T := by
  intro ns scope same at_
  obtain ⟨n, ns, rfl, head, tail⟩ := List.map_eq_cons_iff.mp same
  unfold Machine.computeAll
  simp only [Run.gather]
  refine (first.compute head at_).bind (fun v known => ?_) fun h error => failed h (.inl error)
  have others := EndsAmong.holding (rest v known ns _ tail (at_.holding [v]))
  refine others.bind (fun vs others => ?_) fun h error => failed h (.inr error)
  exact .pure (holds v vs known others)

/-- Several nodes that come to given values, by induction on them. -/
theorem EvaluatesAll.given {trees : List Node} {vs : List Value}
    (each : List.Forall₂ (fun tree v => Evaluates base tree c b depth limit (· = .ok v)) trees vs)
    : EvaluatesAll base trees c b depth limit (· = .ok vs) := by
  induction each with
  | nil => exact .nil
  | cons first _ ih =>
      refine .cons first (fun _ _ => ih) ?_ ?_
      · rintro _ _ ⟨⟩ ⟨⟩
        rfl
      · rintro _ (⟨⟨⟩⟩ | ⟨⟨⟩⟩)

/-- The ends of several evaluations, one for each: the list of their values, or the error of one. -/
def Listed (ends : List (Except Halt Value → Prop))
    : Except Halt (List Value) → Prop
  | .ok vs => List.Forall₂ (fun R v => R (.ok v)) ends vs
  | .error h => ∃ R ∈ ends, R (.error h)

/-- Several nodes, from each of them. Witness: induction on the nodes. -/
theorem EvaluatesAll.listed {trees : List Node} {ends : List (Except Halt Value → Prop)}
    (each : List.Forall₂ (fun tree R => Evaluates base tree c b depth limit R) trees ends)
    : EvaluatesAll base trees c b depth limit (Listed ends) := by
  induction each with
  | nil =>
      intro ns scope same at_
      exact (EvaluatesAll.nil ns scope same at_).mono fun r empty => empty ▸ .nil
  | cons first _ ih =>
      refine .cons first (fun _ _ => ih) (fun v vs known others => .cons known others) ?_
      rintro h (error | ⟨R, among, error⟩)
      · exact ⟨_, List.mem_cons_self, error⟩
      · exact ⟨R, List.mem_cons_of_mem _ among, error⟩

/-- A call, from its callee, its arguments and what the callee answers; it fails if an argument
does.
-/
theorem Evaluates.call {callee : Node} {trees : List Node} {P : Value → Prop}
    {Q : Except Halt (List Value) → Prop} (found : FindsValue base callee c b depth limit P)
    (values : EvaluatesAll base trees c b depth limit Q)
    (calls : ∀ v args, P v → Q (.ok args) → Calls base v args depth limit R)
    (failed : ∀ h, Q (.error h) → R (.error h))
    : Evaluates base (.of (.apply callee trees)) c b depth limit R := by
  refine .of_evalNode fun n scope shapes at_ => ?_
  change n.shape.tree = .apply callee trees at shapes
  unfold Machine.evalNode
  cases shape : n.shape <;> rw [shape] at shapes <;> cases shapes
  refine (found _ scope rfl at_).bindEnds fun v holds => ?_
  have together := EndsAmong.holding (values _ _ (treesOf_eq_map _).symm (at_.holding [v]))
  refine together.bind (fun args known => ?_) failed
  exact (calls v args holds known c scope at_).bind (fun w answered => .pure ⟨rfl, answered⟩)
    fun _ error => error

/-- To write a text comes to nothing but the text. -/
theorem ComesTo.write {scope : Scope} (text : String)
    : ComesTo base (fun _ => Run.write text) scope (.ok ()) :=
  fun st standing => ⟨{ st with output := st.output ++ text },
    standing.quiet (Course.output (P := Store.Quiet)) rfl rfl, .of_forall fun _ => rfl⟩

/-- A primitive that calls no function answers at once, however deep the call is, with any
arrangement of the table that it enlarges.
-/
theorem Calls.builtin {p : Primitive} (other : p ≠ .apply) {args : List Value}
    (answers : ∀ a, R (Halt.ofExcept (p.answer a args)))
    : Calls base (.function (.builtin p)) args depth limit R := by
  intro caller scope _
  have ordinary : (p == .apply) = false := beq_eq_false_iff_ne.mpr other
  refine .succ (x := fun m => m.callPrimitive p args caller) scope (fun _ _ => rfl) ?_
  unfold Machine.callPrimitive
  unfold Primitive.answer at answers
  cases checked : p.checkArity args with
  | error e =>
      rw [checked] at answers
      exact (ComesTo.bind_error .fail).ends (answers .last)
  | ok =>
      rw [checked] at answers
      refine (ComesTo.pure.yields (P := fun _ => True) trivial).bindEnds fun _ _ => ?_
      simp only [ordinary, Bool.false_eq_true, if_false]
      refine ((ComesTo.write _).yields (P := fun _ => True) trivial).bindEnds fun _ _ => ?_
      refine (yields_arrangementIf p.enlarges).bindEnds fun a _ => ?_
      have answered := answers a
      simp only [LawfulMonad.pure_bind]
      cases computed : p.compute a args with
      | error fault =>
          rw [computed] at answered
          exact .fail answered
      | ok v =>
          rw [computed] at answered
          exact .pure answered

/-- A call of a function literal's value comes to what its body comes to one call deeper. -/
theorem Calls.closing {params : List Symbol} {rest : Option Symbol} {body : Node} {d : ContextId}
    {identity : Identity} {args : List Value}
    (accepted : (b.closing params rest body d identity).arity.accepts args.length)
    (room : depth < limit)
    (runs : Evaluates base body.tree d (b.overridden params rest args) (depth + 1) limit R)
    : Calls base (.function (.closure (b.closing params rest body d identity))) args depth limit
        R := by
  intro caller scope at_
  have inside : scope.callDepth < scope.callLimit := by
    rw [at_.depth, at_.limit]
    exact room
  refine .succ (x := fun m => m.compute body d (b.overridden params rest args))
    { scope with callDepth := scope.callDepth + 1 }
    (fun level st => Machine.outcome_call_closing level b params rest body d caller identity st
      accepted inside) ?_
  exact runs.compute rfl ⟨congrArg Nat.succ at_.depth, at_.limit⟩

/-- A call of a function where no deeper call is allowed. -/
theorem Calls.overflow {f : Closure} {args : List Value} (accepted : f.arity.accepts args.length)
    (full : ¬depth < limit) (holds : R (.error (.error (.stackOverflow depth limit))))
    : Calls base (.function (.closure f)) args depth limit R := by
  intro caller scope at_
  refine .succ (x := fun m => m.callClosure f args) scope (fun _ _ => rfl) ?_
  unfold Machine.callClosure
  simp only [accepted, Bool.not_true, Bool.false_eq_true, if_false]
  intro st standing
  refine ⟨_, st, holds, standing, .of_forall fun level => ?_⟩
  rw [Run.outcome_insideCall, at_.depth, at_.limit, if_neg full]

end Rules

-----------------------------------------------------------------------------------------
-- Library functions
-----------------------------------------------------------------------------------------

/-- (Replies base s args depth limit R) says that a call of what a symbol is defined as comes to one
of several ends, whichever context the definition was found in.
-/
def Replies (base : Store) (s : Symbol) (args : List Value) (depth limit : Nat)
    (R : Except Halt Value → Prop)
    : Prop :=
  ∀ (c : ContextId) (slot : Slot) (v : Value), (base.context c).slots[s]? = some slot
    → (∀ size, base.Means size slot v) → Calls base v args depth limit R

section Library

variable {base : Store} {defs : List (Symbol × Node)} {c : ContextId} {b : Bindings}
  {depth limit : Nat} {R : Except Halt Value → Prop} {s : Symbol} {args : List Value}

/-- (base.Defines c s) says that a context has a definition of a symbol. -/
def Store.Defines (base : Store) (c : ContextId) (s : Symbol)
    : Prop :=
  ((base.context c).slots[s]?).isSome

/-- A symbol without a lexical value evaluates to what it is defined as. -/
theorem Store.Library.finds (library : base.Library defs) (free : b.lexical? s = none)
    {slot : Slot} (stored : (base.context c).slots[s.qualify coreSpace]? = some slot)
    : FindsValue base (.lookup s) c b depth limit fun v => ∀ size, base.Means size slot v := by
  intro n scope tree at_
  have shapes := Node.shape_of_tree tree
  have evaluates : Yields base (fun m => m.eval n c b) scope fun result =>
      ∀ size, base.Means size slot result.1 := by
    have around := (at_.entering c).holding (.node n :: b.values)
    refine .succ (x := fun m => m.evalNode n c b) _ (fun _ _ => rfl) ?_
    unfold Machine.evalNode
    cases shape : n.shape <;> rw [shape] at shapes <;> cases shapes
    simp only [free]
    refine (library.yields_valueOf stored).bind fun v means => ?_
    exact ComesTo.pure.yields means
  unfold Machine.compute
  exact evaluates.bind fun result means => ComesTo.pure.yields means

/-- A call of a symbol that has no lexical value, from its arguments and what it answers. -/
theorem Evaluates.apply {trees : List Node} {Q : Except Halt (List Value) → Prop}
    (library : base.Library defs) (free : b.lexical? s = none)
    (defined : base.Defines c (s.qualify coreSpace))
    (values : EvaluatesAll base trees c b depth limit Q)
    (answers : ∀ args, Q (.ok args) → Replies base (s.qualify coreSpace) args depth limit R)
    (failed : ∀ h, Q (.error h) → R (.error h))
    : Evaluates base (.of (.apply (.lookup s) trees)) c b depth limit R := by
  obtain ⟨slot, stored⟩ := Option.isSome_iff_exists.mp defined
  exact .call (library.finds free stored) values
    (fun v args means known => answers args known c slot v stored means) failed

/-- A function replies among any weaker results. -/
theorem Replies.mono {S : Except Halt Value → Prop} (replies : Replies base s args depth limit R)
    (weaker : ∀ r, R r → S r)
    : Replies base s args depth limit S :=
  fun c slot v stored means caller scope at_ =>
    (replies c slot v stored means caller scope at_).mono weaker

/-- A primitive replies what it answers, since the slot of its name means it. -/
theorem Replies.builtin {p : Primitive} (library : base.Library defs) (other : p ≠ .apply)
    (given : defs.lookup s = some (.constant (.function (.builtin p))))
    (answers : ∀ a, R (Halt.ofExcept (p.answer a args)))
    : Replies base s args depth limit R := by
  intro c slot v stored means
  obtain rfl := (means 0).constant (library.shape_of_constant stored given)
  exact .builtin other answers

variable {params : List Symbol} {rest : Option Symbol} {body : Node}

/-- What a function literal means is a function made where its definition is found. -/
theorem Store.Library.closing_of_means {slot : Slot} {v : Value} (library : base.Library defs)
    (given : defs.lookup s = some (.of (.lambda params rest body)))
    (stored : (base.context c).slots[s]? = some slot) (means : ∀ size, base.Means size slot v)
    : ∃ written d identity, written.tree = body ∧ base.Finds d slot
        ∧ v = .function (.closure (Bindings.closing [] params rest written d identity)) := by
  have known := library.known stored
  rw [given] at known
  have shapes := Node.shape_of_tree (Option.some.inj known).symm
  have meant := means 0
  unfold Store.Means at meant
  cases shape : slot.node.shape <;> rw [shape] at shapes <;> cases shapes
  rw [shape] at meant
  obtain ⟨d, identity, there, rfl⟩ := meant
  exact ⟨_, d, identity, rfl, there, rfl⟩

/-- A call of a library function, by its body in whichever context defines what the body uses. -/
theorem Replies.function (library : base.Library defs)
    (given : defs.lookup s = some (.of (.lambda params rest body)))
    (accepted : (Bindings.closing [] params rest body 0 0).arity.accepts args.length)
    (room : depth < limit)
    (runs : ∀ d, base.Defines d s
      → (∀ used ∈ (Node.of (.lambda params rest body)).dependencies,
          base.Defines d (used.qualify coreSpace))
      → Evaluates base body d (Bindings.overridden [] params rest args) (depth + 1) limit R)
    : Replies base s args depth limit R := by
  intro c slot v stored means
  obtain ⟨written, d, identity, rfl, there, rfl⟩ := library.closing_of_means given stored means
  have known := library.known stored
  rw [given] at known
  obtain ⟨k, held⟩ := there
  -- both contexts have the slot under its own name
  have named := (library.coherent.indexed d).ownSymbol held
  rw [← named, (library.coherent.indexed c).ownSymbol stored] at held
  refine .closing accepted room (runs d (Option.isSome_iff_exists.mpr ⟨slot, held⟩) ?_)
  rw [Option.some.inj known]
  exact library.closed held

/-- A function that there is no room to call replies that there are too many calls. -/
theorem Replies.overflow (library : base.Library defs)
    (given : defs.lookup s = some (.of (.lambda params rest body)))
    (accepted : (Bindings.closing [] params rest body 0 0).arity.accepts args.length)
    (full : ¬depth < limit) (holds : R (.error (.error (.stackOverflow depth limit))))
    : Replies base s args depth limit R := by
  intro c slot v stored means
  obtain ⟨written, d, identity, rfl, there, rfl⟩ := library.closing_of_means given stored means
  exact .overflow accepted full holds

end Library

end IncrementalLisp
