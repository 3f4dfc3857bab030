import IncrementalLisp.Proofs.Store.Reached

/-! Stores that only grow. Whatever a machine does, it leaves the contexts that there were as they
were, also when it computes a slot of no context; and it never fails to compute a constant slot.
Hence whatever names the namespace of each context when a run has ended named it all along.
-/

namespace IncrementalLisp

open Run

namespace Store

variable {st after : Store}

/-- (st.SpacesConstant) says that in every context the symbol of the current namespace, if it is
defined there, is defined to be a constant.
-/
def SpacesConstant (st : Store)
    : Prop :=
  ∀ {c : ContextId} {slot : Slot},
    (st.context c).slots[Symbol.currentSpace]? = some slot → slot.node.isConstant

/-- The namespaces that are constant when a store has grown were so before. -/
theorem Grows.spacesConstant (grows : st.Grows after) (constant : after.SpacesConstant)
    : st.SpacesConstant := by
  intro c slot stored
  rw [← grows.2 c (lt_size_of_slot stored)] at stored
  exact constant stored

instance course_grows : Course Grows where
  refl := .refl _
  trans := .trans
  define := Step.grows (.define ..)
  identity := Step.grows (.identity _)
  arrange := Step.grows (.arrange _)
  output := Step.grows (.output ..)
  host := fun next => Step.grows (.host next)
  collected := Step.grows (.collected ..)
  slot := fun inside => inside

instance recollection_grows : Recollection Machine.ofLevels Grows where
  remember := fun _ _ _ grows => grows

end Store

/-- A machine that only adds contexts to the store and does not fail to compute constant slots. -/
class Machine.Steady (m : Machine) : Prop extends m.Follows Store.Grows where
  forces : ∀ slot c, Run.Follows Store.Grows (m.force slot c)
  constant
    : ∀ {slot : Slot}, slot.node.isConstant
        → ∀ c scope st e, ((m.force slot c).outcome scope st).1 ≠ .error (.error e)

namespace Machine

instance grows_force {m : Machine} [m.Steady] (slot : Slot) (c : ContextId)
    : Run.Follows Store.Grows (m.force slot c) :=
  Steady.forces slot c

instance grows_remember (slot : Slot) (v : Value)
    : Run.Follows Store.Grows (modify (·.remember slot v) : Run Unit) :=
  ⟨fun _ st => Store.Grows.refl st⟩

instance grows_forceSlot {m : Machine} [m.Follows Store.Grows] (slot : Slot)
    (finder : ContextId)
    : Run.Follows Store.Grows (m.forceSlot slot finder) := by
  unfold forceSlot
  apply Run.Follows.andThen
  intro st
  split <;> infer_instance

/-- A constant slot has the value it has, or else that of its node. -/
theorem forceSlot_ne_error_of_constant (m : Machine) {slot : Slot} (constant : slot.node.isConstant)
    (finder : ContextId) (scope : Scope) (st : Store) (e : EvalError)
    : ((m.forceSlot slot finder).outcome scope st).1 ≠ .error (.error e) := by
  obtain ⟨v, known⟩ := Option.isSome_iff_exists.mp constant
  unfold forceSlot computeSlot
  rw [outcome_bind, outcome_get, known]
  dsimp only
  intro failed
  cases remembered : st.value? slot with
  | some w =>
      rw [remembered] at failed
      cases failed
  | none =>
      rw [remembered] at failed
      cases failed

/-- Every machine of the tower is steady. -/
instance steady_ofLevels (n : Nat)
    : (ofLevels n).Steady := by
  cases n with
  | zero =>
      refine ⟨fun _ _ => Run.Follows.exhausted, fun _ _ _ _ _ failed => ?_⟩
      cases failed
  | succ n =>
      refine ⟨fun slot c => Run.Follows.inContext c ((ofLevels n).forceSlot slot c), ?_⟩
      exact fun constant c scope st e => forceSlot_ne_error_of_constant
        (ofLevels n) constant c _ st e

end Machine

end IncrementalLisp
