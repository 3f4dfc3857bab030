import IncrementalLisp.Proofs.Node.Parts
import IncrementalLisp.Proofs.Simulation.Similar
import IncrementalLisp.Proofs.Store.Grounded

/-! Stores of definitions that only read. Their nodes call no function and define nothing, and none
of them refers to the symbol of namespaces, so that a switch of the namespace renews no slot: the
slots of all contexts that their evaluation adds are constants or slots from before.
-/

namespace IncrementalLisp

/-- Whether the evaluation of a node calls no function and defines nothing, apart from its parts. -/
def Shape.onlyReads : Shape → Bool
  | .apply _ _ => false
  | .define _ _ => false
  | _ => true

/-- (n.OnlyReads) says that there is no call of a function and no definition at any depth of the
node.
-/
inductive Node.OnlyReads : Node → Prop where
  | of {n : Node} (shape : n.shape.onlyReads) (parts : ∀ part ∈ n.shape.parts, part.OnlyReads)
      : n.OnlyReads

/-- (n.IgnoresSpace) says that a node does not refer to the symbol of namespaces, however spelled.
-/
def Node.IgnoresSpace (n : Node)
    : Prop :=
  Symbol.currentSpace ∉ n.dependencies ∧ Symbol.bare Symbol.currentSpace.name ∉ n.dependencies

instance (n : Node)
    : Decidable n.IgnoresSpace :=
  inferInstanceAs (Decidable (_ ∧ _))

/-- A constant has no dependencies, so it does not read the namespace. -/
theorem Node.ignoresSpace_constant (v : Value)
    : (Node.constant v).IgnoresSpace := by
  have none : (Node.constant v).dependencies = ∅ := by
    change (Shape.constant v).dependencies ∪ ∅ = ∅
    rw [Shape.dependencies]
    rfl
  unfold IgnoresSpace
  rw [none]
  exact ⟨Std.ExtTreeSet.not_mem_empty, Std.ExtTreeSet.not_mem_empty⟩

/-- In no namespace is the symbol of namespaces a dependency of a node that ignores it. -/
theorem Node.IgnoresSpace.not_mem_spellings {n : Node} (ignores : n.IgnoresSpace) (space : String)
    : Symbol.currentSpace ∉ n.dependencies.spellings space := by
  have missed (other : String) (s : Symbol) (listed : s ∈ n.dependencies)
      : Symbol.currentSpace ≠ s.qualify other := by
    intro same
    obtain ⟨qualifier, name⟩ := s
    cases qualifier with
    | some q => exact ignores.1 (same ▸ listed)
    | none =>
        have named : name = Symbol.currentSpace.name := (congrArg Symbol.name same).symm
        exact ignores.2 (named ▸ listed)
  intro spelled
  obtain ⟨s, listed, same | same | same⟩ := SymbolSet.mem_spellings.mp spelled
  · exact ignores.1 (same ▸ listed)
  · exact missed space s listed same
  · exact missed coreSpace s listed same

namespace Store

/-- (st.Within S) says that the slots of all contexts are constants or among some slots, and that
none of them depends on the symbol of namespaces.
-/
structure Within (S : Set Slot) (st : Store) : Prop where
  indexed : ∀ c, (st.context c).Indexed
  apart
    : ∀ {c : ContextId} {slot : Slot}, st.Finds c slot → Symbol.currentSpace ∉ slot.dependencies
  slots : ∀ {c : ContextId} {slot : Slot}, st.Finds c slot → slot.node.isConstant ∨ slot ∈ S

variable {S : Set Slot} {st after : Store}

/-- The store that a session starts with is within any set of slots, since it has none. -/
theorem Within.start (S : Set Slot) (host : Host) (arrangements : Nat → Arrangement)
    : (Store.start host arrangements).Within S where
  indexed := fun c => (Coherent.start host arrangements).indexed c
  apart := fun found => absurd found not_finds_start
  slots := fun found => absurd found not_finds_start

/-- Only the contexts of a store matter. -/
theorem Within.aside (within : st.Within S) (same : after.contexts = st.contexts)
    : after.Within S := by
  have contexts (c : ContextId) : after.context c = st.context c := by
    unfold context
    rw [same]
  constructor
  · intro c
    rw [contexts]
    exact within.indexed c
  · rintro c slot ⟨k, stored⟩
    rw [contexts] at stored
    exact within.apart ⟨k, stored⟩
  · rintro c slot ⟨k, stored⟩
    rw [contexts] at stored
    exact within.slots ⟨k, stored⟩

/-- No slot is renewed by a definition of the symbol of namespaces. -/
theorem Within.not_mem_transitiveDependents (within : st.Within S) (c : ContextId) (k : Symbol)
    : k ∉ (st.context c).transitiveDependents Symbol.currentSpace := by
  rw [(within.indexed c).mem_transitiveDependents]
  intro reaches
  obtain ⟨_, _, slot, stored, depends⟩ := Relation.TransGen.tail'_iff.mp reaches
  exact within.apart ⟨_, stored⟩ depends

/-- A definition of a constant, or of a node whose slot is among the allowed ones, keeps the slots
among them, if it switches the namespace or the allowed slots may be renewed.
-/
theorem Within.define (within : st.Within S) {c : ContextId} {space : String} {s : Symbol}
    {node : Node} {b : Bindings} (ignores : node.IgnoresSpace)
    (new
      : node.isConstant ∨ Context.newSlot st.contexts.size space s node b ∈ S)
    (renewed
      : s.qualify space = Symbol.currentSpace ∨ ∀ slot ∈ S, ∀ owner, slot.ownedBy owner ∈ S)
    : (st.define c space s node b).2.Within S := by
  have found {k : ContextId} {slot : Slot} (finds : (st.define c space s node b).2.Finds k slot)
      : Symbol.currentSpace ∉ slot.dependencies ∧ (slot.node.isConstant ∨ slot ∈ S) := by
    obtain ⟨e, stored⟩ := finds
    rw [context_define] at stored
    split at stored
    · rw [Context.getElem?_define] at stored
      split at stored
      · obtain rfl := Option.some.inj stored
        exact ⟨ignores.not_mem_spellings space, new⟩
      · split at stored
        · rename_i dependent
          obtain ⟨old, held, rfl⟩ := Option.map_eq_some_iff.mp stored
          have apart := within.apart ⟨e, held⟩
          refine ⟨apart, ?_⟩
          rcases renewed with switched | renewed
          · rw [switched] at dependent
            exact absurd dependent (within.not_mem_transitiveDependents c e)
          · exact (within.slots ⟨e, held⟩).imp_right fun among => renewed old among _
        · exact ⟨within.apart ⟨e, stored⟩, within.slots ⟨e, stored⟩⟩
    · exact ⟨within.apart ⟨e, stored⟩, within.slots ⟨e, stored⟩⟩
  refine ⟨fun k => ?_, fun finds => (found finds).1, fun finds => (found finds).2⟩
  rw [context_define]
  split
  · exact (within.indexed c).define
  · exact within.indexed k

/-- The slots of all contexts of a store. -/
def slots (st : Store)
    : List Slot :=
  st.contexts.toList.flatMap fun context => context.slots.toList.map (·.2)

/-- A slot that some context finds is one of the store's slots, by the context that stores it. -/
theorem Finds.mem_slots {c : ContextId} {slot : Slot} (found : st.Finds c slot)
    : slot ∈ st.slots := by
  obtain ⟨k, stored⟩ := found
  have old := lt_size_of_slot stored
  have there : st.context c ∈ st.contexts.toList := by
    unfold context
    simp [Array.getD, old]
  have listed := Std.ExtTreeMap.mem_toList_iff_getElem?_eq_some.mpr stored
  exact List.mem_flatMap.mpr ⟨_, there, List.mem_map.mpr ⟨_, listed, rfl⟩⟩

end Store
end IncrementalLisp
