import IncrementalLisp.Proofs.Machine.Specialized
import IncrementalLisp.Proofs.Node.Optimized

/-! The parts of evaluation that simplification does in advance: only the shape of a node matters to
its evaluation, and constants evaluate to themselves on every machine that runs anything.
-/

namespace IncrementalLisp

namespace Machine

variable {n n' : Node} (level : Nat) (c : ContextId) (b : Bindings)

/-- An expansion goes on in its context by itself. -/
theorem inContext_expand (e : Expander) (form : Value) (k : Expander)
    : Run.inContext c ((ofLevels level).expand e c form k)
      = (ofLevels level).expand e c form k := by
  cases level with
  | zero => rfl
  | succ level => exact Run.inContext_inContext c _

/-- An expansion goes on while its form is at hand. -/
theorem outcome_expand_initial (limit : Nat) (form : Value) (scope : Scope) (st : Store)
    : ((ofLevels level).expand (.initial limit) c form (.initial limit)).outcome scope st
      = ((ofLevels level).expand (.initial limit) c form (.initial limit)).outcome
        ((scope.entering c).holding [form]) st := by
  cases level with
  | zero => rfl
  | succ level =>
      let around := (scope.entering c).holding [form]
      have entered : around.entering c = around := Scope.entering_of_held (by simp [around])
      let initial := Value.expander (.initial limit)
      have hand : Among (around.held · = true) form.contexts :=
        fun d member => (Scope.held_holding ..).mpr (.inl (by simpa [contextsOfAll] using member))
      have held : around.holding [initial, form, initial] = around :=
        Scope.holding_form hand rfl rfl
      have same : (scope.entering c).holding [initial, form, initial] = around :=
        Scope.holding_congr fun d => by simp [contextsOfAll, initial]
      change ((ofLevels level).expandInitial c form (.initial limit)).outcome
          ((scope.entering c).holding _) st
        = ((ofLevels level).expandInitial c form (.initial limit)).outcome
          ((around.entering c).holding _) st
      rw [entered, held, same]

/-- A constant ends with its value, in the context in which it began. -/
theorem evalNode_constant (m : Machine) {v : Value} (constant : n.shape = .constant v)
    : m.evalNode n c b = pure (v, c) := by
  unfold evalNode
  rw [constant]

/-- A constant evaluates to itself on every machine but the lowest. -/
theorem eval_constant {v : Value} (constant : n.shape = .constant v)
    : (ofLevels (level + 1)).eval n c b = pure (v, c) := by
  exact congrArg (fun x => Run.inContext c (Run.holding _ x)) (evalNode_constant c b _ constant)

/-- The sequence of one node ends as that node does, while the value before it is at hand. -/
theorem evalSequence_singleton (m : Machine) (n : Node) (last : Value)
    : m.evalSequence [n] last c b = Run.holding [last] (m.eval n c b) := by
  simp only [evalSequence]
  exact bind_pure (Run.holding [last] (m.eval n c b))

-----------------------------------------------------------------------------------------
-- Collections
-----------------------------------------------------------------------------------------

end Machine

end IncrementalLisp
