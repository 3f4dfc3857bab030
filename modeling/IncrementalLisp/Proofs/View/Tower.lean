import IncrementalLisp.Machine.Tower
import IncrementalLisp.Proofs.View.Expansion
import IncrementalLisp.Session.Compile

/-! All machines respect all views: what runs they make of programs that look alike, of forms that
look alike and in stores that look alike are not told apart.
-/

namespace IncrementalLisp

/-- Every machine respects every view. Witness: induction on its levels. -/
theorem Machine.respects_ofLevels (V : View) (level : Nat)
    : (ofLevels level).Respects V := by
  induction level with
  | zero => constructor <;> intros <;> exact .exhausted
  | succ level ih =>
      constructor
      case eval =>
        intro n n' c b b' same bindings
        refine ((ih.evalNode same bindings c).holding ?_).inContext c
        rw [contextsOfAll, contextsOfAll, contextsOfAll_values, contextsOfAll_values]
        exact (Node.contexts_same same).append (contextsOfBindings_same bindings)
      case call => exact fun c same values => ih.callValue values c same
      case force => exact fun c same => (ih.forceSlot same c).inContext c
      case expand =>
        intro e e' c form form' k k' expanders same onward
        refine ((ih.expandForm c same onward expanders).holdingSeen ?_).inContext c
        simp only [List.map_cons, List.map_nil, Value.seen, expanders, same, onward]

namespace Machine.Respects

open Run (Agree)

variable {V : View} {m : Machine} (machines : m.Respects V) (config : Config) {form form' : Value}
  (same : form.seen V = form'.seen V) (c : ContextId)
include machines same

/-- The expansion of a form at the top agrees, by the expansion and then the simplification. -/
theorem expandTop
    : Agree V (Node.seen V) (m.expandTop config form c) (m.expandTop config form' c) := by
  refine (machines.expand c rfl same rfl).bind fun {n n'} nodes => ?_
  refine (Run.Agree.arrangementIf _).bindEq fun a => .pure ?_
  unfold Config.prepared
  split
  · rw [← Node.optimized_seen, nodes, Node.optimized_seen]
  · exact nodes

/-- Forms that look alike run alike. -/
theorem runForm
    : Agree V (seenState V) (m.runForm config form c) (m.runForm config form' c) := by
  refine .withReader ?_ ?_
  · exact fun scopes => ⟨scopes.depth, rfl, scopes.held, scopes.around⟩
  · exact (machines.expandTop config same c).bind fun nodes =>
      (machines.eval c nodes rfl).holdingOne same

end Machine.Respects

end IncrementalLisp
