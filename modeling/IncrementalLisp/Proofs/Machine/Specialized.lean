import IncrementalLisp.Machine.Tower
import IncrementalLisp.Proofs.Machine.Scope
import IncrementalLisp.Proofs.Node.References

/-! Specialization is invisible to evaluation: a node with the values of lexical names put into it
evaluates as the node itself does under those values. A call of a function is therefore the
evaluation of its body, as it was written, where the function was written.
-/

namespace IncrementalLisp

-----------------------------------------------------------------------------------------
-- Runs with the same outcomes
-----------------------------------------------------------------------------------------

namespace Run

variable {α β : Type}

/-- Sequences are the same if their rests are the same wherever the first part can lead. -/
theorem bind_congr_of {x : Run α} {f g : α → Run β}
    (rest : ∀ scope st a after, x.outcome scope st = (.ok a, after)
      → (f a).outcome scope after = (g a).outcome scope after)
    : x >>= f = x >>= g := by
  apply ext_outcome
  intro scope st
  rw [outcome_bind, outcome_bind]
  rcases led : x.outcome scope st with ⟨result, after⟩
  cases result with
  | error h => rfl
  | ok a => exact rest scope st a after led

end Run

-----------------------------------------------------------------------------------------
-- Bindings under evaluation
-----------------------------------------------------------------------------------------

/-- The evaluation of a list of bindings gives values to its own names only. -/
theorem Machine.get?_of_evalPairs {m : Machine} {outer : Bindings} {scope : Scope}
    {pairs : List (Symbol × Node)} {b inner : Bindings} {c c' : ContextId} {st after : Store}
    (led : (m.evalPairs outer pairs b c).outcome scope st = (.ok (inner, c'), after))
    {s : Symbol} (outside : s ∉ pairs.map (·.1))
    : inner.get? s = b.get? s := by
  induction pairs generalizing b c st with
  | nil =>
      cases led
      rfl
  | cons pair rest ih =>
      obtain ⟨name, expr⟩ := pair
      rw [Machine.evalPairs, Run.outcome_bind_eq_ok] at led
      obtain ⟨⟨v, c₁⟩, middle, -, later⟩ := led
      rw [List.map_cons, List.mem_cons, not_or] at outside
      rw [ih later outside.2, Bindings.get?_insert, if_neg outside.1]

/-- Bindings that are within others stay so, without the names that pairs bind on the way. Witness:
by each symbol, bound by the pairs or not.
-/
theorem Machine.within_of_evalPairs {m : Machine} {outer : Bindings} {scope : Scope}
    {pairs : List (Symbol × Node)} {b more inner : Bindings} {c c' : ContextId} {st after : Store}
    (within : b.Within more)
    (led : (m.evalPairs outer pairs more c).outcome scope st = (.ok (inner, c'), after))
    : (b.eraseAll (pairs.map (·.1))).Within inner := by
  intro s v known
  rw [Bindings.get?_eraseAll] at known
  split at known
  · cases known
  · rename_i outside
    rw [Machine.get?_of_evalPairs led outside]
    exact within s v known

-----------------------------------------------------------------------------------------
-- Evaluation of specialized nodes
-----------------------------------------------------------------------------------------

/-- (m.Unspecialized) says that a machine evaluates a node with the values of some names put into
it as it evaluates the node itself, wherever the names have those values.
-/
def Machine.Unspecialized (m : Machine)
    : Prop :=
  ∀ (n : Node) (c : ContextId) {b more : Bindings}, b.Within more
    → m.eval (n.specialized b) c more = m.eval n c more

namespace Machine.Unspecialized

variable {m : Machine} {b more : Bindings} (seen : m.Unspecialized) (within : b.Within more)
include seen within

/-- A specialized node has the value of the node, as it has its end. -/
theorem compute (n : Node) (c : ContextId)
    : m.compute (n.specialized b) c more = m.compute n c more := by
  unfold Machine.compute
  rw [seen n c within]

/-- So have specialized nodes, one by one. Witness: induction on the nodes. -/
theorem computeAll (nodes : List Node) (c : ContextId)
    : m.computeAll (specializedAll nodes b) c more = m.computeAll nodes c more := by
  unfold Machine.computeAll
  induction nodes with
  | nil => rfl
  | cons n rest ih =>
      change Run.gather id _ (n.specialized b :: specializedAll rest b) = _
      rw [Run.gather, Run.gather, ih, seen.compute within]

/-- A specialized sequence ends as the sequence does. Witness: induction on the nodes. -/
theorem evalSequence (nodes : List Node) (last : Value) (c : ContextId)
    : m.evalSequence (specializedAll nodes b) last c more = m.evalSequence nodes last c more := by
  induction nodes generalizing last c with
  | nil => rfl
  | cons n rest ih =>
      change m.evalSequence (n.specialized b :: specializedAll rest b) last c more = _
      rw [Machine.evalSequence, Machine.evalSequence, seen n c within]
      exact bind_congr fun result => ih result.1 result.2

/-- Specialized pairs bind what the pairs do. Witness: induction on the pairs. -/
theorem evalPairs (pairs : List (Symbol × Node)) (inner : Bindings) (c : ContextId)
    : m.evalPairs more (specializedPairs pairs b) inner c = m.evalPairs more pairs inner c := by
  induction pairs generalizing inner c with
  | nil => rfl
  | cons pair rest ih =>
      obtain ⟨s, n⟩ := pair
      change m.evalPairs more ((s, n.specialized b) :: specializedPairs rest b) inner c = _
      rw [Machine.evalPairs, Machine.evalPairs, seen n c within]
      exact bind_congr fun result => ih (inner.insert s result.1) result.2

end Machine.Unspecialized

/-- A reference whose name has a value evaluates to it, as the value put in its place does. -/
theorem Machine.evalNode_lookup_specialized {m : Machine} {b more : Bindings}
    (within : b.Within more) {n : Node} {s : Symbol} (reference : n.shape = .lookup s)
    (c : ContextId)
    : m.evalNode (n.specialized b) c more = m.evalNode n c more := by
  obtain ⟨shape, recorded, source, identity⟩ := n
  obtain rfl := reference
  cases bound : b.lexical? s with
  | none => rw [Node.specialized_lookup_of_none bound]
  | some v =>
      have constant : ((Node.mk (.lookup s) recorded source identity).specialized b).shape
          = .constant v := by
        rw [Node.specialized_lookup_of_some bound, Node.shape_replacedBy, Node.shape_locatedAt]
        rfl
      unfold Machine.evalNode
      simp only [constant, within.lexical? bound]

/-- What a machine does with a node, from what the machine below it does with its parts. -/
theorem Machine.Unspecialized.evalNode {m : Machine} (seen : m.Unspecialized) (n : Node)
    (c : ContextId) {b more : Bindings} (within : b.Within more)
    : m.evalNode (n.specialized b) c more = m.evalNode n c more := by
  by_cases reference : ∃ s, n.shape = .lookup s
  · obtain ⟨s, reference⟩ := reference
    exact Machine.evalNode_lookup_specialized within reference c
  have other : ∀ s, n.shape ≠ .lookup s := fun s same => reference ⟨s, same⟩
  have shapes := Node.shape_specialized other b
  unfold Machine.evalNode
  rw [shapes]
  cases shape : n.shape with
  | lookup s => exact absurd shape (other s)
  | constant | quote | invoke | invokeStatic | cast | instanceOf => rfl
  | apply f args =>
      rw [Shape.specialized]
      simp only [seen.compute within, seen.computeAll within]
  | define s expr =>
      rw [Shape.specialized]
      simp only [Node.specialized_specialized _ within]
  | sequence body =>
      rw [Shape.specialized]
      exact seen.evalSequence within body .nil c
  | conditional test yes no =>
      rw [Shape.specialized]
      simp only [seen test c within]
      apply bind_congr
      rintro ⟨v, c⟩
      cases v.isTruthy
      · exact congrArg (Run.holding [v]) (seen no c within)
      · exact congrArg (Run.holding [v]) (seen yes c within)
  | binding pairs body =>
      rw [Shape.specialized]
      simp only [seen.evalPairs within]
      apply Run.bind_congr_of
      rintro scope st ⟨inner, c'⟩ after led
      simp only [seen body c' (Machine.within_of_evalPairs within led)]
  | lambda params rest body =>
      rw [Shape.specialized]
      simp only [Machine.closureOf, Node.specialized_specialized _ (within.eraseAll _)]
  | expander continuation params body =>
      rw [Shape.specialized]
      simp only [Machine.userExpanderOf, Node.specialized_specialized _ (within.eraseAll _)]
  | vector items =>
      rw [Shape.specialized]
      simp only [seen.computeAll within]
  | list items =>
      rw [Shape.specialized]
      simp only [seen.computeAll within]
  | hashMap items =>
      rw [Shape.specialized]
      simp only [seen.computeAll within]
  | set items =>
      rw [Shape.specialized]
      simp only [seen.computeAll within]

/-- A specialized node is at hand with its bindings as the node itself would be. -/
theorem Node.contexts_at_hand {b more : Bindings} (within : b.Within more) (n : Node)
    (c : ContextId)
    : c ∈ contextsOfAll (.node (n.specialized b) :: more.values)
      ↔ c ∈ contextsOfAll (.node n :: more.values) := by
  have apart (contexts : List ContextId) : c ∉ contexts ↔ Among (· ≠ c) contexts :=
    ⟨fun outside d member found => outside (found ▸ member), fun among member => among c member rfl⟩
  have same (bound : c ∉ contextsOfBindings more)
      : c ∉ (n.specialized b).contexts ↔ c ∉ n.contexts := by
    rw [apart, apart]
    exact Node.among_specialized_within within ((apart _).mp bound)
  simp only [contextsOfAll, Value.contexts, contextsOfAll_values, List.mem_append]
  by_cases bound : c ∈ contextsOfBindings more
  · exact ⟨fun _ => .inr bound, fun _ => .inr bound⟩
  · rw [or_iff_left bound, or_iff_left bound]
    exact not_iff_not.mp (same bound)

/-- Every machine evaluates a specialized node as the node itself. Witness: induction on the
levels.
-/
theorem Machine.unspecialized_ofLevels (levels : Nat)
    : (Machine.ofLevels levels).Unspecialized := by
  induction levels with
  | zero =>
      intro n c b more within
      rfl
  | succ levels ih =>
      intro n c b more within
      change Run.inContext c (Run.holding _ _) = Run.inContext c (Run.holding _ _)
      rw [ih.evalNode n c within, Run.holding_congr (Node.contexts_at_hand within n)]

-----------------------------------------------------------------------------------------
-- Calls
-----------------------------------------------------------------------------------------

namespace Bindings

/-- The bindings with every parameter bound to its argument, and the rest parameter to the vector
of the remaining arguments.
-/
def overridden (b : Bindings) (params : List Symbol) (rest : Option Symbol) (args : List Value)
    : Bindings :=
  let bound := (params.zip args).foldl (fun b (s, v) => Bindings.insert b s v) b
  match rest with
  | none => bound
  | some r => bound.insert r (.vector (args.drop params.length))

/-- Two symbols can be erased in either order. -/
theorem erase_erase (b : Bindings) (s t : Symbol)
    : (b.erase s).erase t = (b.erase t).erase s := by
  simp only [erase, List.filter_filter, Bool.and_comm]

/-- To erase a symbol twice is to erase it once. -/
theorem erase_erase_self (b : Bindings) (s : Symbol)
    : (b.erase s).erase s = b.erase s := by
  simp [erase, List.filter_filter]

/-- The first name can be erased last. Witness: induction on the other names. -/
theorem eraseAll_cons (b : Bindings) (s : Symbol) (names : List Symbol)
    : b.eraseAll (s :: names) = (b.eraseAll names).erase s := by
  induction names generalizing b with
  | nil => rfl
  | cons t rest ih =>
      calc b.eraseAll (s :: t :: rest)
          = ((b.erase s).erase t).eraseAll rest := rfl
        _ = (b.erase t).eraseAll (s :: rest) := by
              rw [erase_erase]
              rfl
        _ = ((b.erase t).eraseAll rest).erase s := ih (b.erase t)

/-- A name that is to get a value need not be taken out first. -/
theorem insert_eraseAll (b : Bindings) (s : Symbol) (v : Value) (names : List Symbol)
    : (b.eraseAll names).insert s v = (b.insert s v).eraseAll (names.filter (· != s)) := by
  induction names with
  | nil => rfl
  | cons t rest ih =>
      unfold insert at ih ⊢
      rw [eraseAll_cons]
      by_cases same : t = s
      · subst same
        rw [erase_erase_self, ih]
        simp
      · rw [List.filter_cons_of_pos (by simpa using same), eraseAll_cons, ← ih, erase_cons,
          if_neg (Ne.symm same), erase_erase]

/-- Names that all get values need not be taken out first. -/
theorem foldl_insert_eraseAll (entries : List (Symbol × Value)) {b : Bindings}
    {names : List Symbol} (given : ∀ s ∈ names, s ∈ entries.map (·.1))
    : entries.foldl (fun b (s, v) => Bindings.insert b s v) (b.eraseAll names)
      = entries.foldl (fun b (s, v) => Bindings.insert b s v) b := by
  induction entries generalizing b names with
  | nil =>
      have none : names = [] := List.eq_nil_iff_forall_not_mem.mpr fun s listed => by
        simpa using given s listed
      rw [none]
      rfl
  | cons entry rest ih =>
      obtain ⟨s, v⟩ := entry
      rw [List.foldl_cons, List.foldl_cons]
      dsimp only
      rw [insert_eraseAll]
      apply ih
      intro t listed
      rw [List.mem_filter] at listed
      simpa [show t ≠ s by simpa using listed.2] using given t listed.1

/-- The names that a call binds need not be taken out first. -/
theorem overridden_eraseAll (b : Bindings) {params : List Symbol} {rest : Option Symbol}
    {args : List Value} (enough : params.length ≤ args.length)
    : (b.eraseAll (params ++ rest.toList)).overridden params rest args
      = b.overridden params rest args := by
  have names : (params.zip args).map (·.1) = params := by
    rw [List.map_fst_zip enough]
  cases rest with
  | none =>
      apply foldl_insert_eraseAll
      intro s listed
      rw [names]
      simpa using listed
  | some r =>
      let entries := params.zip args ++ [(r, .vector (args.drop params.length))]
      have given : ∀ s ∈ params ++ [r], s ∈ entries.map (·.1) := fun s listed => by
        simpa [entries, names] using listed
      have folded := foldl_insert_eraseAll entries given (b := b)
      rwa [List.foldl_append, List.foldl_append] at folded

/-- A symbol that no entry names keeps its value. Witness: induction on the entries. -/
theorem get?_foldl_insert {entries : List (Symbol × Value)} {b : Bindings} {s : Symbol}
    (outside : s ∉ entries.map (·.1))
    : Bindings.get? (entries.foldl (fun b (s, v) => Bindings.insert b s v) b) s = b.get? s := by
  induction entries generalizing b with
  | nil => rfl
  | cons entry rest ih =>
      rw [List.map_cons, List.mem_cons, not_or] at outside
      rw [List.foldl_cons, ih outside.2, get?_insert, if_neg outside.1]

/-- Bindings without a closure's parameters are within the bindings of its call, if it has enough
arguments.
-/
theorem within_overridden (b : Bindings) (params : List Symbol) (rest : Option Symbol)
    {args : List Value} (enough : params.length ≤ args.length)
    : (b.eraseAll (params ++ rest.toList)).Within (b.overridden params rest args) := by
  intro s v known
  rw [get?_eraseAll] at known
  split at known
  · cases known
  rename_i outside
  rw [List.mem_append, not_or] at outside
  have kept : Bindings.get? ((params.zip args).foldl (fun b (s, v) => Bindings.insert b s v) b) s
      = b.get? s :=
    get?_foldl_insert (by rw [List.map_fst_zip enough]; exact outside.1)
  cases rest with
  | none => exact kept.trans known
  | some r =>
      have differs : s ≠ r := by simpa using outside.2
      exact (get?_insert ..).trans ((if_neg differs).trans (kept.trans known))

end Bindings

/-- A closure that accepts a number of arguments has no more parameters than that, by its arity. -/
theorem Closure.enough_of_accepts {f : Closure} {count : Nat} (accepted : f.arity.accepts count)
    : f.params.length ≤ count := by
  unfold Closure.arity at accepted
  split at accepted
  · exact Nat.le_of_eq (beq_iff_eq.mp accepted).symm
  · exact of_decide_eq_true accepted

/-- The function that a function literal makes under lexical bindings in a context. -/
def Bindings.closing (b : Bindings) (params : List Symbol) (rest : Option Symbol) (body : Node)
    (c : ContextId) (identity : Identity)
    : Closure :=
  let captured := b.eraseAll (params ++ rest.toList)
  ⟨identity, params, rest, body.specialized captured, captured, c⟩

/-- A function literal evaluates to a new function, and to nothing else. -/
theorem Machine.outcome_eval_lambda (levels : Nat) {n : Node} {params : List Symbol}
    {rest : Option Symbol} {body : Node} (literal : n.shape = .lambda params rest body)
    (c : ContextId) (b : Bindings) (scope : Scope) (st : Store)
    : ((Machine.ofLevels (levels + 1)).eval n c b).outcome scope st
      = (.ok (.function (.closure (b.closing params rest body c st.nextIdentity)), c),
          { st with nextIdentity := st.nextIdentity + 1 }) := by
  change ((Machine.ofLevels levels).evalNode n c b).outcome _ st = _
  unfold Machine.evalNode
  rw [literal]
  rfl

/-- A call of a function literal's value evaluates the body as it was written, where the literal
was evaluated, under the bindings there overridden with the arguments.
-/
theorem Machine.outcome_call_closing (levels : Nat) (b : Bindings) (params : List Symbol)
    (rest : Option Symbol) (body : Node) (c caller : ContextId) (identity : Identity)
    {args : List Value} {scope : Scope} (st : Store)
    (accepted : (b.closing params rest body c identity).arity.accepts args.length)
    (room : scope.callDepth < scope.callLimit)
    : ((Machine.ofLevels (levels + 1)).call
          (.function (.closure (b.closing params rest body c identity))) args caller).outcome scope st
      = ((Machine.ofLevels levels).compute body c (b.overridden params rest args)).outcome
          { scope with callDepth := scope.callDepth + 1 } st := by
  have enough : params.length ≤ args.length := Closure.enough_of_accepts accepted
  have frame : (b.closing params rest body c identity).frame args = b.overridden params rest args :=
    Bindings.overridden_eraseAll b enough
  have within := Bindings.within_overridden b params rest enough
  change ((Machine.ofLevels levels).callClosure (b.closing params rest body c identity) args).outcome
    scope st = _
  unfold Machine.callClosure
  rw [accepted, frame]
  dsimp only [Bindings.closing]
  rw [Node.specialized_specialized body within,
    (Machine.unspecialized_ofLevels levels).compute (Bindings.Within.refl _)]
  change (Run.insideCall _).outcome scope st = _
  unfold Run.insideCall
  rw [Run.outcome_bind, Run.outcome_read]
  dsimp only
  rw [if_pos room, Run.outcome_withReader]

/-- Specialization is invisible to evaluation: a node with the values of lexical names put into it
evaluates in the same way as the node itself. Hence a function literal evaluates to a function
whose calls, with arguments that it accepts and below the bound on the depth of calls, have the
outcome of the literal's body, evaluated in the literal's context under the literal's bindings
with the parameters overridden by the arguments and the rest parameter by the vector of the
remaining ones.
-/
theorem Machine.specialization_invisible (levels : Nat) (n : Node) (c : ContextId) (b : Bindings)
    : (Machine.ofLevels levels).eval (n.specialized b) c b = (Machine.ofLevels levels).eval n c b
      ∧ ∀ (params : List Symbol) (rest : Option Symbol) (body : Node),
          n.shape = .lambda params rest body → ∀ (scope : Scope) (st : Store), ∃ f : Closure,
            ((Machine.ofLevels (levels + 1)).eval n c b).outcome scope st
                = (.ok (.function (.closure f), c),
                    { st with nextIdentity := st.nextIdentity + 1 })
              ∧ f.params = params ∧ f.rest = rest
              ∧ ∀ (deeper : Nat) (args : List Value) (caller : ContextId) (later : Scope)
                  (after : Store),
                  f.arity.accepts args.length → later.callDepth < later.callLimit →
                    ((Machine.ofLevels (deeper + 1)).call (.function (.closure f)) args
                        caller).outcome later after
                      = ((Machine.ofLevels deeper).compute body c
                            (b.overridden params rest args)).outcome
                          { later with callDepth := later.callDepth + 1 } after := by
  refine ⟨Machine.unspecialized_ofLevels levels n c (Bindings.Within.refl b), ?_⟩
  intro params rest body literal scope st
  refine ⟨b.closing params rest body c st.nextIdentity,
    Machine.outcome_eval_lambda levels literal c b scope st, rfl, rfl, ?_⟩
  intro deeper args caller later after accepted room
  exact Machine.outcome_call_closing deeper b params rest body c caller st.nextIdentity after
    accepted room

/-- A literal whose rest parameter is its result, called with one argument more than it has
parameters.
-/
theorem Machine.call_of_rest_literal
    : let x := Symbol.bare "x"
      let more := Symbol.bare "more"
      let literal := Node.of (.lambda [x] (some more) (.lookup more))
      let args := [Value.int 1, Value.int 2]
      let st := Store.start ⟨[], []⟩
      let later := { st with nextIdentity := 1 }
      ∃ f : Closure,
        ((Machine.ofLevels 1).eval literal Store.first [(x, .nil)]).outcome (.outermost 1) st
            = (.ok (.function (.closure f), Store.first), later)
          ∧ (f.arity.accepts args.length ∧ (Scope.outermost 1).callDepth < 1)
          ∧ ((Machine.ofLevels 2).call (.function (.closure f)) args Store.first).outcome
              (.outermost 1) later
            = (.ok (.vector [.int 2]), later) := by
  intro x more literal args st later
  obtain ⟨-, closes⟩ := Machine.specialization_invisible 0 literal Store.first [(x, .nil)]
  obtain ⟨f, evaluated, params, rest, calls⟩ :=
    closes [x] (some more) (.lookup more) rfl (.outermost 1) st
  have accepted : f.arity.accepts args.length := by
    unfold Closure.arity
    rw [params, rest]
    rfl
  refine ⟨f, evaluated, ⟨accepted, Nat.one_pos⟩, ?_⟩
  exact calls 1 args Store.first (.outermost 1) later accepted Nat.one_pos

end IncrementalLisp
