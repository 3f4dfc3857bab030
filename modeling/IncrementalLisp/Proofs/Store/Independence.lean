import IncrementalLisp.Proofs.Context.Commutation
import IncrementalLisp.Proofs.Simulation.Tower

/-! Definitions in a context whose namespace is a constant. Each finds that namespace and adds the
context that the definition makes; so two of them, of different symbols and none of them of the
namespace, come to the same in either order, even if the second order is tried long after the first
one.
-/

namespace IncrementalLisp

open Run Store

namespace Machine

variable {level : Nat} {scope : Scope} {st : Store} {c : ContextId} {space : String} {s t : Symbol}
  {node node' : Node} {b b' : Bindings}

/-- The search for the namespace of a settled context finds it, and adds no context. -/
theorem currentSpace_of_space? (level : Nat) (scope : Scope) (coherent : st.Coherent)
    (settled : (st.context c).space? = some space)
    : ∃ found, ((ofLevels (level + 1)).currentSpace c).outcome scope st = (.ok space, found)
        ∧ found.contexts = st.contexts := by
  unfold Context.space? at settled
  unfold currentSpace
  rw [outcome_bind_of_eq_ok (outcome_context ..)]
  cases stored : (st.context c).slots[Symbol.currentSpace]? with
  | none =>
      rw [stored] at settled
      obtain rfl := Option.some.inj settled
      exact ⟨st, rfl, rfl⟩
  | some slot =>
      rw [stored] at settled
      obtain ⟨v, constant, rfl⟩ := Option.map_eq_some_iff.mp settled
      obtain ⟨after, forced, contexts⟩
          : ∃ after, ((ofLevels (level + 1)).force slot c).outcome scope st = (.ok v, after)
              ∧ after.contexts = st.contexts := by
        obtain ⟨inner, same⟩
            : ∃ inner, ((ofLevels (level + 1)).force slot c).outcome scope st
                = ((ofLevels level).forceSlot slot c).outcome inner st := ⟨_, rfl⟩
        have ended
            : ((ofLevels level).forceSlot slot c).outcome inner st = (.ok v, st)
              ∨ ((ofLevels level).forceSlot slot c).outcome inner st
                = (.ok v, st.remember slot v) :=
          forceSlot_of_constant constant coherent ⟨_, stored⟩
        rw [same]
        rcases ended with ends | ends
        · exact ⟨st, ends, rfl⟩
        · exact ⟨st.remember slot v, ends, rfl⟩
      refine ⟨after, ?_, contexts⟩
      rw [outcome_bind, outcome_attempt, forced]
      cases v <;> rfl

/-- A definition in a settled context adds the context that it makes of it. -/
theorem defines_of_space? (level : Nat) (scope : Scope) (s : Symbol) (node : Node) (b : Bindings)
    (coherent : st.Coherent) (settled : (st.context c).space? = some space)
    : ∃ after,
        ((ofLevels (level + 1)).define c s node b).outcome scope st
          = (.ok st.contexts.size, after)
        ∧ after.context st.contexts.size
          = (st.context c).define st.contexts.size space s node b := by
  obtain ⟨found, known, contexts⟩ := currentSpace_of_space? level scope coherent settled
  have same (k : ContextId) : found.context k = st.context k := by
    unfold Store.context
    rw [contexts]
  refine ⟨(found.define c space s node b).2, ?_, ?_⟩
  · unfold define
    rw [outcome_bind_of_eq_ok known, ← contexts]
    rfl
  · rw [← contexts, context_define, if_pos rfl, same]

/-- Two definitions, the second one in the context that the first one makes. -/
def defineBoth (m : Machine) (c : ContextId) (s : Symbol) (node : Node) (b : Bindings) (t : Symbol)
    (node' : Node) (b' : Bindings)
    : Run ContextId := do
  let d ← m.define c s node b
  m.define d t node' b'

/-- Two definitions in a settled context, of which the first does not change the namespace, add a
context for each.
-/
theorem definesBoth_of_space? (level : Nat) (scope : Scope) (s : Symbol) (node : Node)
    (b : Bindings) (t : Symbol) (node' : Node) (b' : Bindings) (coherent : st.Coherent)
    (there : c < st.contexts.size) (settled : (st.context c).space? = some space)
    (other : s.qualify space ≠ .currentSpace)
    : ∃ first last after,
        ((ofLevels (level + 1)).defineBoth c s node b t node' b').outcome scope st
          = (.ok last, after)
        ∧ st.contexts.size ≤ first ∧ st.contexts.size ≤ last
        ∧ after.context last
          = ((st.context c).define first space s node b).define last space t node' b' := by
  obtain ⟨middle, ran, made⟩ := defines_of_space? level scope s node b coherent settled
  have leads : st.Leads middle := Run.Follows.of_eq ran
  have still : (middle.context st.contexts.size).space? = some space := by
    have younger : c ≤ st.contexts.size := Nat.le_of_lt there
    rw [← leads.grows.2 c there] at made settled
    rw [space?_of_derives (.of_define younger made) other, settled]
  obtain ⟨after, ran', made'⟩ :=
    defines_of_space? level scope t node' b' (leads.coherent coherent) still
  refine ⟨st.contexts.size, middle.contexts.size, after, ?_, Nat.le_refl _, leads.grows.1, ?_⟩
  · unfold defineBoth
    rw [outcome_bind_of_eq_ok ran, ran']
  · rw [made', made]

end Machine

namespace Store

open Machine

/-- Independent definitions commute: in a context whose namespace is a constant, two definitions of
different symbols, none of them of the namespace, succeed in either order and come to contexts with
the same definitions and the same dependents index; and of the slots of the context before both keep
the same ones, those apart from the two symbols. Each order is tried in any store that the first one
leads to. Witness: definitions commute in contexts, and a slot of the context is older than each
context that is added.
-/
theorem independent_definitions_commute {st : Store} (reached : st.Reached) {c : ContextId}
    (there : c < st.contexts.size) {space : String}
    (settled : (st.context c).space? = some space) {s t : Symbol}
    (differ : s.qualify space ≠ t.qualify space) (other : s.qualify space ≠ .currentSpace)
    (other' : t.qualify space ≠ .currentSpace) (node node' : Node) (b b' : Bindings)
    {early late : Store} (first : st.Leads early) (second : st.Leads late) (level : Nat)
    (scope scope' : Scope)
    : ∃ d after e after',
        ((ofLevels (level + 1)).defineBoth c s node b t node' b').outcome scope early
          = (.ok d, after)
        ∧ ((ofLevels (level + 1)).defineBoth c t node' b' s node b).outcome scope' late
          = (.ok e, after')
        ∧ (after.context d).SameDefinitions (after'.context e)
        ∧ ∀ k slot, (st.context c).slots[k]? = some slot
            → ((after.context d).slots[k]? = some slot
                ↔ (st.context c).Apart k (s.qualify space)
                  ∧ (st.context c).Apart k (t.qualify space))
              ∧ ((after'.context e).slots[k]? = some slot
                ↔ (st.context c).Apart k (s.qualify space)
                  ∧ (st.context c).Apart k (t.qualify space)) := by
  have indexed := reached.coherent.indexed c
  have tried {later : Store} (onward : st.Leads later) (scope : Scope) (s : Symbol) (node : Node)
      (b : Bindings) (t : Symbol) (node' : Node) (b' : Bindings)
      (other : s.qualify space ≠ .currentSpace) :=
    definesBoth_of_space? level scope s node b t node' b' (onward.coherent reached.coherent)
      (Nat.lt_of_lt_of_le there onward.grows.1) (by rw [onward.grows.2 c there, settled]) other
  obtain ⟨o, d, after, ran, young, younger, made⟩ := tried first scope s node b t node' b' other
  obtain ⟨o', e, after', ran', young', younger', made'⟩ :=
    tried second scope' t node' b' s node b other'
  rw [first.grows.2 c there] at made
  rw [second.grows.2 c there] at made'
  refine ⟨d, after, e, after', ran, ran', ?_, fun k slot stored => ?_⟩
  · rw [made, made']
    exact indexed.define_comm differ
  · have old : slot.owner < st.contexts.size :=
      Nat.lt_of_le_of_lt (reached.coherent.owned stored) there
    have older {later : Store} (onward : st.Leads later) {k : ContextId}
        (young : later.contexts.size ≤ k) : slot.owner ≠ k :=
      Nat.ne_of_lt (Nat.lt_of_lt_of_le old (Nat.le_trans onward.grows.1 young))
    rw [made, made',
      indexed.kept_define_define (older first young) (older first younger),
      indexed.kept_define_define (older second young') (older second younger')]
    exact ⟨by simp [stored], by simp [stored, and_comm]⟩

/-- Two symbols of a namespace that use each other, and one apart from them. The first is defined to
use itself as well, and the second no longer uses the first: in either order the slot of the third
is kept.
-/
theorem circular_definitions_commute
    : let x := Symbol.bare "x"
      let y := Symbol.bare "y"
      let z := Symbol.inSpace "user" "z"
      let space := (Store.start .standard).define 0 coreSpace .currentSpace
        (.constant (.string "user")) []
      let one := space.2.define 1 "user" x (.lookup y) []
      let two := one.2.define 2 "user" y (.lookup x) []
      let st := (two.2.define 3 "user" z (.constant .nil) []).2
      let node := Node.of (.vector [.lookup x, .lookup y])
      let slot := Context.newSlot 4 "user" z (.constant .nil) []
      (st.Reached ∧ 4 < st.contexts.size ∧ (st.context 4).space? = some "user"
          ∧ x.qualify "user" ≠ y.qualify "user" ∧ x.qualify "user" ≠ .currentSpace
          ∧ y.qualify "user" ≠ .currentSpace ∧ st.Leads st)
        ∧ ∃ d after e after',
            ((ofLevels 1).defineBoth 4 x node [] y (.lookup z) []).outcome (.outermost 1) st
              = (.ok d, after)
            ∧ ((ofLevels 1).defineBoth 4 y (.lookup z) [] x node []).outcome (.outermost 1) st
              = (.ok e, after')
            ∧ (after.context d).SameDefinitions (after'.context e)
            ∧ (after.context d).slots[z]? = some slot
            ∧ (after'.context e).slots[z]? = some slot := by
  intro x y z space one two st node slot
  have reached : st.Reached := by
    refine Reached.leads (.start .standard) ?_
    exact (((Relation.ReflTransGen.single (.define ..)).tail (.define ..)).tail (.define ..)).tail
      (.define ..)
  have there : 4 < st.contexts.size := by decide +kernel
  have settled : (st.context 4).space? = some "user" := by decide +kernel
  refine ⟨⟨reached, there, settled, by decide, by decide, by decide, .refl⟩, ?_⟩
  obtain ⟨d, after, e, after', ran, ran', same, kept⟩ :=
    independent_definitions_commute reached there settled (s := x) (t := y) (by decide) (by decide)
      (by decide) node (.lookup z) [] [] .refl .refl 0 (.outermost 1) (.outermost 1)
  have stored : (st.context 4).slots[z]? = some slot := by
    rw [context_define, if_pos (by decide +kernel)]
    exact Context.getElem?_define_self
  obtain ⟨iff, iff'⟩ := kept z slot stored
  have apart : (st.context 4).Apart z (x.qualify "user")
      ∧ (st.context 4).Apart z (y.qualify "user") := by
    have indexed := reached.coherent.indexed 4
    unfold Context.Apart
    rw [← indexed.mem_transitiveDependents, ← indexed.mem_transitiveDependents]
    decide +kernel
  exact ⟨d, after, e, after', ran, ran', same, iff.mpr apart, iff'.mpr apart⟩

end Store

end IncrementalLisp
