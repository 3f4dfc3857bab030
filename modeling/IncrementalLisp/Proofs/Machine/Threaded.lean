import IncrementalLisp.Proofs.Machine.Specialized
import IncrementalLisp.Proofs.Machine.Steady

/-! Definitions and the context that evaluation leaves. The context that the evaluation of a node
ends in is made of the one that it starts in by the definitions that it meets at threaded positions,
one after the other. A threaded position is the node itself, an item of a sequence, the test and the
chosen branch of a conditional, and an expression or the body of a binding. Whatever else is defined
on the way, in a callee, in an argument, in an item of a collection or in a slot that is computed,
is defined in contexts that are dropped.
-/

namespace IncrementalLisp

open Run

-----------------------------------------------------------------------------------------
-- Threaded positions
-----------------------------------------------------------------------------------------

mutual

/-- The definitions at the threaded positions of a node, each with its symbol and its expression. -/
def Node.threaded : Node → List (Symbol × Node)
  | ⟨shape, _, _, _⟩ => shape.threaded
termination_by structural n => n

/-- The definitions at the threaded positions of a shape. -/
def Shape.threaded : Shape → List (Symbol × Node)
  | .define s expr => [(s, expr)]
  | .sequence body => threadedInAll body
  | .conditional test yes no => test.threaded ++ (yes.threaded ++ no.threaded)
  | .binding pairs body => threadedInPairs pairs ++ body.threaded
  | _ => []
termination_by structural s => s

/-- The definitions at the threaded positions of several nodes. -/
def threadedInAll : List Node → List (Symbol × Node)
  | [] => []
  | n :: rest => n.threaded ++ threadedInAll rest
termination_by structural ns => ns

/-- The definitions at the threaded positions of the expressions in a list of bindings. -/
def threadedInPairs : List (Symbol × Node) → List (Symbol × Node)
  | [] => []
  | (_, n) :: rest => n.threaded ++ threadedInPairs rest
termination_by structural ps => ps

end

/-- Whether a node of a shape passes a context on from part to part, or makes one. -/
def Shape.isThreading : Shape → Bool
  | .define _ _ => true
  | .sequence _ => true
  | .conditional _ _ _ => true
  | .binding _ _ => true
  | _ => false

/-- A definition as it was made: the context that came into being with it, the namespace that was
current, the symbol and the expression of its node, and the bindings under which it was met.
-/
structure Definition where
  owner : ContextId
  space : String
  symbol : Symbol
  expr : Node
  bindings : Bindings

/-- The symbol and the expression of a definition. -/
def Definition.site (made : Definition)
    : Symbol × Node :=
  (made.symbol, made.expr)

/-- The context that a definition makes of another one. -/
def Context.extendedBy (c : Context) (made : Definition)
    : Context :=
  c.define made.owner made.space made.symbol (made.expr.specialized made.bindings) made.bindings

/-- A definition adds a symbol to a context and takes none away. -/
theorem Context.mem_extendedBy {c : Context} {made : Definition} {k : Symbol} (member : k ∈ c.slots)
    : k ∈ (c.extendedBy made).slots := by
  rw [← Std.ExtTreeMap.isSome_getElem?_iff_mem] at member ⊢
  unfold extendedBy
  rw [getElem?_define]
  split
  · rfl
  · split
    · rwa [Option.isSome_map]
    · exact member

/-- So do several definitions. Witness: induction on them. -/
theorem Context.mem_foldl_extendedBy {c : Context} (made : List Definition) {k : Symbol}
    (member : k ∈ c.slots)
    : k ∈ (made.foldl extendedBy c).slots := by
  induction made generalizing c with
  | nil => exact member
  | cons first rest ih => exact ih (mem_extendedBy member)

-----------------------------------------------------------------------------------------
-- Evaluation with a list of the definitions
-----------------------------------------------------------------------------------------

namespace Machine

/-- Evaluations that list the definitions they make at threaded positions. -/
abbrev Lister := Node → ContextId → Bindings → Run ((Value × ContextId) × List Definition)

namespace Lister

variable (eval : Lister)

/-- Evaluates nodes in order and lists the definitions of each. -/
def sequence
    : List Node → Value → ContextId → Bindings
      → Run ((Value × ContextId) × List Definition)
  | [], last, c, _ => return ((last, c), [])
  | node :: rest, last, c, b => do
      let ((v, c), made) ← Run.holding [last] (eval node c b)
      let (result, later) ← sequence rest v c b
      return (result, made ++ later)

/-- Evaluates the expressions of a list of bindings and lists the definitions of each. -/
def pairs (outer : Bindings)
    : List (Symbol × Node) → Bindings → ContextId
      → Run ((Bindings × ContextId) × List Definition)
  | [], b, c => return ((b, c), [])
  | (s, expr) :: rest, b, c => do
      let ((v, c), made) ← Run.holding b.values (eval expr c outer)
      let (result, later) ← pairs outer rest (b.insert s v) c
      return (result, made ++ later)

/-- Evaluates a node and lists the definitions at its threaded positions. -/
def node (m : Machine) (n : Node) (c : ContextId) (b : Bindings)
    : Run ((Value × ContextId) × List Definition) := do
  match n.shape with
  | .define s expr =>
      let space ← m.currentSpace c
      let d ← modifyGet (·.define c space s (expr.specialized b) b)
      return ((.nil, d), [⟨d, space, s, expr, b⟩])
  | .sequence body => eval.sequence body .nil c b
  | .conditional test yes no =>
      let ((v, c), made) ← eval test c b
      let (result, later) ← Run.holding [v] (eval (if v.isTruthy then yes else no) c b)
      return (result, made ++ later)
  | .binding pairs body =>
      let ((inner, c), made) ← eval.pairs b pairs b c
      let (result, later) ← eval body c inner
      return (result, made ++ later)
  | _ => return (← m.evalNode n c b, [])

end Lister

/-- The evaluation of a machine of a number of levels, with the list of definitions. -/
def lister : Nat → Lister
  | 0 => fun _ _ _ => Run.exhausted
  | n + 1 => fun node c b =>
      Run.inContext c (Run.holding (.node node :: b.values) ((lister n).node (ofLevels n) node c b))

-----------------------------------------------------------------------------------------
-- The list forgotten
-----------------------------------------------------------------------------------------

section Forgetting

variable {eval : Lister} {m : Machine}
  (same : ∀ node c b, Prod.fst <$> eval node c b = m.eval node c b)

include same in
/-- A listed sequence without its list is the sequence. Witness: induction on the body. -/
theorem forget_sequence (body : List Node) (last : Value) (c : ContextId) (b : Bindings)
    : Prod.fst <$> eval.sequence body last c b = m.evalSequence body last c b := by
  induction body generalizing last c with
  | nil => simp [Lister.sequence, evalSequence]
  | cons node rest ih =>
      simp [Lister.sequence, evalSequence, ← same, ← ih, ← Run.map_holding]

include same in
/-- Listed pairs without their list are the pairs. Witness: induction on them. -/
theorem forget_pairs (outer : Bindings) (pairs : List (Symbol × Node)) (b : Bindings)
    (c : ContextId)
    : Prod.fst <$> eval.pairs outer pairs b c = m.evalPairs outer pairs b c := by
  induction pairs generalizing b c with
  | nil => simp [Lister.pairs, evalPairs]
  | cons pair rest ih =>
      simp [Lister.pairs, evalPairs, ← same, ← ih, ← Run.map_holding]

include same in
/-- A listed node without its list is the node, by its shape. -/
theorem forget_node (n : Node) (c : ContextId) (b : Bindings)
    : Prod.fst <$> eval.node m n c b = m.evalNode n c b := by
  unfold Lister.node
  cases shape : n.shape with
  | define s expr =>
      simp [evalNode, shape, define]
  | sequence body =>
      simp only [evalNode, shape]
      exact forget_sequence same body .nil c b
  | conditional test yes no =>
      simp [evalNode, shape, ← same, ← Run.map_holding]
  | binding pairs body =>
      simp [evalNode, shape, ← same, ← forget_pairs same]
  | _ => simp

end Forgetting

/-- The list of definitions is an addition to evaluation: without it, it is what the machine does.
Witness: induction on the levels.
-/
theorem forget_lister (level : Nat) (n : Node) (c : ContextId) (b : Bindings)
    : Prod.fst <$> lister level n c b = (ofLevels level).eval n c b := by
  induction level generalizing n c b with
  | zero => rfl
  | succ level ih =>
      have inside := forget_node (m := ofLevels level) ih n c b
      exact congrArg (fun x => Run.inContext c (Run.holding (.node n :: b.values) x)) inside

-----------------------------------------------------------------------------------------
-- Runs that stay in a context
-----------------------------------------------------------------------------------------

end Machine

/-- A computation whose result comes with the context that it started in. -/
class Run.Stays (c : ContextId) (x : Run (Value × ContextId)) : Prop where
  stays
    : ∀ {scope st v d after}, x.outcome scope st = (.ok (v, d), after) → d = c

namespace Run.Stays

variable {c : ContextId}

instance pure (v : Value)
    : Stays c (pure (v, c)) where
  stays := by
    rintro scope st v d after ⟨⟩
    rfl

instance fail (e : EvalError)
    : Stays c (Run.fail e) :=
  ⟨fun failed => nomatch failed⟩

instance bind {α : Type} (x : Run α) (f : α → Run (Value × ContextId)) [∀ a, Stays c (f a)]
    : Stays c (x >>= f) where
  stays := by
    intro scope st v d after ran
    obtain ⟨a, middle, -, rest⟩ := outcome_bind_eq_ok.mp ran
    exact stays rest

/-- The same with the rest left to prove, for one that analyses the result of the first part. -/
theorem andThen {α : Type} {x : Run α} {f : α → Run (Value × ContextId)}
    (rest : ∀ a, Stays c (f a))
    : Stays c (x >>= f) :=
  bind x f

end Run.Stays

/-- A node drops what its parts do to the context, unless its shape is a threading one. -/
theorem Machine.stays_evalNode (m : Machine) {n : Node} (still : n.shape.isThreading = false)
    (c : ContextId) (b : Bindings)
    : Run.Stays c (m.evalNode n c b) := by
  obtain ⟨shape, literal, source, pure⟩ := n
  unfold evalNode
  cases shape with
  | define s expr => cases still
  | sequence body => cases still
  | conditional test yes no => cases still
  | binding pairs body => cases still
  | lookup s =>
      dsimp only
      split <;> infer_instance
  | hashMap items =>
      refine Run.Stays.andThen fun values => Run.Stays.andThen fun a => ?_
      split <;> infer_instance
  | instanceOf type expr =>
      refine Run.Stays.andThen fun w => ?_
      split <;> infer_instance
  | _ =>
      dsimp only
      infer_instance

-----------------------------------------------------------------------------------------
-- Definitions performed
-----------------------------------------------------------------------------------------

/-- (st.Performs c sites made after d) says that on the way from one store to the other the listed
definitions were made one after the other, at some of the sites in their order: the first on the
context c, each other one on the context of the one before it, and d is the context of the last.
-/
structure Store.Performs (st : Store) (c : ContextId) (sites : List (Symbol × Node))
    (made : List Definition) (after : Store) (d : ContextId) : Prop where
  grows : st.Grows after
  there : d < after.contexts.size
  context : after.context d = made.foldl Context.extendedBy (st.context c)
  last : d = (made.getLast?.map (·.owner)).getD c
  sites : (made.map Definition.site).Sublist sites

namespace Store.Performs

variable {st middle after : Store} {c d e : ContextId} {sites others : List (Symbol × Node)}
  {made later : List Definition}

/-- Nothing was defined as long as the context is the same. -/
theorem none (there : c < st.contexts.size) (grows : st.Grows after)
    : st.Performs c sites [] after c where
  grows := grows
  there := Nat.lt_of_lt_of_le there grows.1
  context := grows.2 c there
  last := rfl
  sites := List.nil_sublist _

/-- A definition is performed by itself. -/
theorem define (c : ContextId) (space : String) (s : Symbol) (expr : Node) (b : Bindings)
    : st.Performs c [(s, expr)] [⟨st.contexts.size, space, s, expr, b⟩]
        (st.define c space s (expr.specialized b) b).2 st.contexts.size where
  grows := Step.grows (.define ..)
  there := by simp
  context := by
    rw [context_define, if_pos rfl]
    rfl
  last := rfl
  sites := .refl _

/-- Definitions that are performed one after the other are performed together. -/
theorem trans (first : st.Performs c sites made middle d)
    (second : middle.Performs d others later after e)
    : st.Performs c (sites ++ others) (made ++ later) after e where
  grows := first.grows.trans second.grows
  there := second.there
  context := by rw [second.context, first.context, List.foldl_append]
  last := by
    rw [second.last, first.last, List.getLast?_append]
    cases later.getLast? <;> rfl
  sites := by
    rw [List.map_append]
    exact first.sites.append second.sites

/-- What is performed at some positions is performed at more positions. -/
theorem within (performs : st.Performs c sites made after d) (part : sites.Sublist others)
    : st.Performs c others made after d :=
  { performs with sites := performs.sites.trans part }

end Store.Performs

namespace Machine

/-- (eval.Faithful) says that the definitions which are listed with a result are those that were
performed on the way to it, at threaded positions of the node.
-/
def Lister.Faithful (eval : Lister)
    : Prop :=
  ∀ {node : Node} {c d : ContextId} {b : Bindings} {scope : Scope} {st after : Store} {v : Value}
      {made : List Definition},
    c < st.contexts.size
      → (eval node c b).outcome scope st = (.ok ((v, d), made), after)
      → st.Performs c node.threaded made after d

section Performing

variable {eval : Lister} {c d : ContextId} {b : Bindings} {scope : Scope} {st after : Store}
  {made : List Definition}

/-- A sequence performs the definitions at its threaded positions, if its nodes do. Witness:
induction on the body.
-/
theorem Lister.Faithful.sequence (faithful : eval.Faithful) {body : List Node} {last v : Value}
    (there : c < st.contexts.size)
    (ran : (eval.sequence body last c b).outcome scope st = (.ok ((v, d), made), after))
    : st.Performs c (threadedInAll body) made after d := by
  induction body generalizing last c st made with
  | nil =>
      cases ran
      exact .none there (.refl _)
  | cons node rest ih =>
      simp only [Lister.sequence, outcome_bind_eq_ok] at ran
      obtain ⟨⟨⟨v₁, c₁⟩, early⟩, middle, first, ⟨⟨v₂, d₂⟩, later⟩, _, second, ⟨⟩⟩ := ran
      have here := faithful there first
      exact here.trans (ih here.there second)

/-- Pairs perform the definitions at theirs. Witness: induction on the pairs. -/
theorem Lister.Faithful.pairs (faithful : eval.Faithful) {outer inner : Bindings}
    {pairs : List (Symbol × Node)} (there : c < st.contexts.size)
    (ran : (eval.pairs outer pairs b c).outcome scope st = (.ok ((inner, d), made), after))
    : st.Performs c (threadedInPairs pairs) made after d := by
  induction pairs generalizing b c st made with
  | nil =>
      cases ran
      exact .none there (.refl _)
  | cons pair rest ih =>
      simp only [Lister.pairs, outcome_bind_eq_ok] at ran
      obtain ⟨⟨⟨v₁, c₁⟩, early⟩, middle, first, ⟨⟨inner₂, d₂⟩, later⟩, _, second, ⟨⟩⟩ := ran
      have here := faithful there first
      exact here.trans (ih here.there second)

variable {m : Machine} [m.Steady]

/-- The definition of a node is made after the namespace was looked up, which defines nothing on
the way to it.
-/
theorem performs_definition {s : Symbol} {expr : Node} {v : Value} (there : c < st.contexts.size)
    (ran
      : (do
          let space ← m.currentSpace c
          let d ← modifyGet (·.define c space s (expr.specialized b) b)
          return ((Value.nil, d), [⟨d, space, s, expr, b⟩]) : Run _).outcome scope st
        = (.ok ((v, d), made), after))
    : st.Performs c [(s, expr)] made after d := by
  simp only [outcome_bind_eq_ok] at ran
  obtain ⟨space, middle, named, _, _, ⟨⟩, ⟨⟩⟩ := ran
  have looked : st.Grows middle := Run.Follows.of_eq named
  have here : st.Performs c [] [] middle c := .none there looked
  exact here.trans (.define c space s expr b)

/-- A node whose shape is no threading one defines nothing. -/
theorem performs_nothing {n : Node} {v : Value} {sites : List (Symbol × Node)}
    (still : n.shape.isThreading = false) (there : c < st.contexts.size)
    (ran
      : (do return (← m.evalNode n c b, []) : Run _).outcome scope st
        = (.ok ((v, d), made), after))
    : st.Performs c sites made after d := by
  simp only [outcome_bind_eq_ok] at ran
  obtain ⟨⟨w, c₁⟩, middle, evaluated, ⟨⟩⟩ := ran
  have stays := m.stays_evalNode still c b
  obtain rfl : d = c := stays.stays evaluated
  exact .none there (Run.Follows.of_eq evaluated)

/-- A node performs the definitions at its threaded positions. Witness: by its shape; a definition
that is carried out is the last one.
-/
theorem Lister.Faithful.node (faithful : eval.Faithful) {n : Node} {v : Value}
    (there : c < st.contexts.size)
    (ran : (eval.node m n c b).outcome scope st = (.ok ((v, d), made), after))
    : st.Performs c n.threaded made after d := by
  obtain ⟨shape, literal, source, pure⟩ := n
  cases shape with
  | define s expr => exact performs_definition there ran
  | sequence body => exact faithful.sequence there ran
  | conditional test yes no =>
      simp only [Lister.node, outcome_bind_eq_ok] at ran
      obtain ⟨⟨⟨tested, c₁⟩, early⟩, middle, first, ⟨⟨v₂, d₂⟩, later⟩, _, second, ⟨⟩⟩ := ran
      have here := faithful there first
      have chosen := faithful here.there second
      refine here.trans (chosen.within ?_)
      split
      · exact List.sublist_append_left _ _
      · exact List.sublist_append_right _ _
  | binding pairs body =>
      simp only [Lister.node, outcome_bind_eq_ok] at ran
      obtain ⟨⟨⟨inner, c₁⟩, early⟩, middle, first, ⟨⟨v₂, d₂⟩, later⟩, _, second, ⟨⟩⟩ := ran
      have here := faithful.pairs there first
      exact here.trans (faithful here.there second)
  | _ => exact performs_nothing rfl there ran

end Performing

/-- What is listed was performed. Witness: induction on the levels. -/
theorem faithful_lister (level : Nat)
    : (lister level).Faithful := by
  induction level with
  | zero =>
      intro node c d b scope st after v made there ran
      cases ran
  | succ level ih =>
      intro node c d b scope st after v made there ran
      exact Lister.Faithful.node ih there ran

/-- Definitions escape at threaded positions only. Whenever a node is evaluated in a context c and
leaves a context d, then d is the context of the last of the definitions that the evaluation made at
threaded positions of the node, and it is what they make of c, each applied to the context of the
one before it; without any, d is c itself. No symbol of c is lost. Witness: the list that the
evaluation keeps.
-/
theorem definitions_escape_threaded (level : Nat) {node : Node} {c d : ContextId} {b : Bindings}
    {scope : Scope} {st after : Store} {v : Value} (there : c < st.contexts.size)
    (ran : ((ofLevels level).eval node c b).outcome scope st = (.ok (v, d), after))
    : ∃ made,
        (lister level node c b).outcome scope st = (.ok ((v, d), made), after)
          ∧ (made.map Definition.site).Sublist node.threaded
          ∧ after.context d = made.foldl Context.extendedBy (st.context c)
          ∧ d = (made.getLast?.map (·.owner)).getD c
          ∧ ∀ k ∈ (st.context c).slots, k ∈ (after.context d).slots := by
  rw [← forget_lister, map_eq_pure_bind, outcome_bind_eq_ok] at ran
  obtain ⟨⟨_, made⟩, _, listed, ⟨⟩⟩ := ran
  have performs := faithful_lister level there listed
  refine ⟨made, listed, performs.sites, performs.context, performs.last, fun k member => ?_⟩
  rw [performs.context]
  exact Context.mem_foldl_extendedBy made member

/-- Definitions in a test, in the branch that is chosen and in a binding escape; those in the other
branch and in an item of a vector do not, though the second of these is made.
-/
theorem three_of_five_escape
    : let definition (name : String) := Node.of (.define (.bare name) (.constant (.int 1)))
      let choice := Node.of (.conditional (definition "x") (definition "y") (definition "z"))
      let node := Node.of (.sequence [choice, .of (.binding [(.bare "k", definition "w")]
        (.of (.vector [definition "q"])))])
      let site (name : String) := (Symbol.bare name, Node.constant (.int 1))
      let st := Store.start .standard
      let ran := ((ofLevels 5).eval node Store.first []).outcome (.outermost 1) st
      (Store.first < st.contexts.size ∧ ran = (.ok (.vector [.nil], 3), ran.2)
          ∧ ran.2.contexts.size = 5)
        ∧ ∃ made : List Definition,
            made.map Definition.site = [site "x", site "z", site "w"]
            ∧ ran.2.context 3 = made.foldl Context.extendedBy (st.context Store.first)
            ∧ (ran.2.context 3).symbols
              = [.inSpace coreSpace "w", .inSpace coreSpace "x", .inSpace coreSpace "z"] := by
  intro definition choice node site st ran
  have evaluated : ran = (.ok (.vector [.nil], 3), ran.2) := by rfl
  refine ⟨⟨by decide, evaluated, by rfl⟩, ?_⟩
  obtain ⟨made, listed, -, makes, -⟩ := definitions_escape_threaded 5 (by decide) evaluated
  have sites : ((lister 5 node Store.first []).outcome (.outermost 1) st).1.map
      (·.2.map Definition.site) = .ok [site "x", site "z", site "w"] := by rfl
  rw [listed] at sites
  exact ⟨made, Except.ok.inj sites, makes, by rfl⟩

end Machine

end IncrementalLisp
