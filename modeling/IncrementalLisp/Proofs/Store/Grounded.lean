import IncrementalLisp.Proofs.Host.Honest
import IncrementalLisp.Proofs.Store.Reached

/-! Stores without dangling references: a definition refers only to contexts older than the context
that owns it, and a computed value only to contexts of the store.
-/

namespace IncrementalLisp

/-- The contexts that a slot refers to by its definition. -/
def Slot.contexts (slot : Slot)
    : List ContextId :=
  slot.node.contexts ++ contextsOfBindings slot.bindings

namespace Store

/-- A store in which every reference leads to a context, on a host that makes up none. -/
structure Grounded (st : Store) : Prop where
  owned
    : ∀ {c : ContextId} {slot : Slot}, st.Finds c slot → slot.owner < st.contexts.size
  slot
    : ∀ {c : ContextId} {slot : Slot}, st.Finds c slot → Among (· < slot.owner) slot.contexts
  value
    : ∀ {id : SlotId} {v : Value}, st.values[id]? = some v → Among (· < st.contexts.size) v.contexts
  sound : st.host.Sound
  honest : st.host.Honest

/-- No context of the first store finds a slot. -/
theorem not_finds_start {host : Host} {arrangements : Nat → Arrangement} {c : ContextId}
    {slot : Slot}
    : ¬(Store.start host arrangements).Finds c slot := by
  rintro ⟨k, stored⟩
  have single : (Store.start host arrangements).context c = Context.empty := by
    cases c <;> simp [context, Store.start]
  rw [single] at stored
  simp [Context.empty] at stored

/-- The first store is grounded, with a sound and honest host. -/
theorem Grounded.start {host : Host} (sound : host.Sound) (honest : host.Honest)
    (arrangements : Nat → Arrangement)
    : (Store.start host arrangements).Grounded where
  owned := fun found => absurd found not_finds_start
  slot := fun found => absurd found not_finds_start
  value := by
    intro id v known
    simp [Store.start] at known
  sound := sound
  honest := honest

section Steps

variable {st : Store} (grounded : st.Grounded)

include grounded

/-- A slot of a context that a definition adds owns what is defined, or comes from a slot of the
context before, which is older.
-/
theorem Grounded.define {c : ContextId} {space : String} {s : Symbol} {node : Node} {b : Bindings}
    (older : Among (· < st.contexts.size) node.contexts)
    (bound : Among (· < st.contexts.size) (contextsOfBindings b))
    : (st.define c space s node b).2.Grounded := by
  have found {k : ContextId} {slot : Slot} (finds : (st.define c space s node b).2.Finds k slot)
      : slot.owner ≤ st.contexts.size ∧ Among (· < slot.owner) slot.contexts := by
    obtain ⟨e, stored⟩ := finds
    have before {k : ContextId} {old : Slot} (held : (st.context k).slots[e]? = some old)
        : old.owner < st.contexts.size ∧ Among (· < old.owner) old.contexts :=
      ⟨grounded.owned ⟨e, held⟩, grounded.slot ⟨e, held⟩⟩
    rw [context_define] at stored
    split at stored
    · rw [Context.getElem?_define] at stored
      split at stored
      · rw [← Option.some.inj stored]
        exact ⟨Nat.le_refl _, among_append.mpr ⟨older, bound⟩⟩
      · split at stored
        · obtain ⟨old, held, rfl⟩ := Option.map_eq_some_iff.mp stored
          obtain ⟨owned, refers⟩ := before held
          exact ⟨Nat.le_refl _, refers.mono (Nat.le_of_lt owned)⟩
        · exact ⟨Nat.le_of_lt (before stored).1, (before stored).2⟩
    · exact ⟨Nat.le_of_lt (before stored).1, (before stored).2⟩
  constructor
  · intro k slot finds
    rw [size_define]
    exact Nat.lt_succ_of_le (found finds).1
  · exact fun finds => (found finds).2
  · intro id v known
    rw [size_define]
    exact (grounded.value known).mono (Nat.le_succ _)
  · exact grounded.sound
  · exact grounded.honest

/-- A store stays grounded when a slot remembers a value that refers to contexts there are. -/
theorem Grounded.remember {slot : Slot} {v : Value}
    (older : Among (· < st.contexts.size) v.contexts)
    : (st.remember slot v).Grounded where
  owned := grounded.owned
  slot := grounded.slot
  value := by
    intro id w known
    simp only [Store.remember, Std.ExtTreeMap.getElem?_insert] at known
    split at known
    · rw [← Option.some.inj known]
      exact older
    · exact grounded.value known
  sound := grounded.sound
  honest := grounded.honest

/-- A step that changes neither contexts nor values, nor the types of the host. -/
theorem Grounded.aside {after : Store} (contexts : after.contexts = st.contexts)
    (values : after.values = st.values) (sound : after.host.Sound)
    (types : after.host.types = st.host.types)
    : after.Grounded where
  owned := by
    intro c slot found
    unfold Finds context at found
    rw [contexts] at found ⊢
    exact grounded.owned found
  slot := by
    intro c slot found
    unfold Finds context at found
    rw [contexts] at found
    exact grounded.slot found
  value := by
    intro id v known
    rw [values] at known
    rw [contexts]
    exact grounded.value known
  sound := sound
  honest := grounded.honest.congr types

end Steps

end Store
end IncrementalLisp
