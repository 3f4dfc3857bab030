import IncrementalLisp.Proofs.Store.Reached

/-! What holds of every reached store: each context is indexed, each slot is as old as the context
that owns it and depends on what its node refers to, only slots of contexts have values, constants
their own, and a context agrees with the owner of each of its slots on all that the slot reaches.
-/

namespace IncrementalLisp

namespace Store

/-- A store whose contexts fit together. -/
structure Coherent (st : Store) : Prop where
  indexed : ∀ c, (st.context c).Indexed
  owned
    : ∀ {c : ContextId} {k : Symbol} {slot : Slot},
        (st.context c).slots[k]? = some slot → slot.owner ≤ c
  remembered : ∀ {id : SlotId} {v : Value}, st.values[id]? = some v → id.owner < st.contexts.size
  stored
    : ∀ {c : ContextId} {k : Symbol} {slot : Slot},
        (st.context c).slots[k]? = some slot → (st.context slot.owner).slots[k]? = some slot
  agrees
    : ∀ {c : ContextId} {k d : Symbol} {slot : Slot},
        (st.context c).slots[k]? = some slot → (st.context c).Reaches k d
        → (st.context slot.owner).slots[d]? = (st.context c).slots[d]?
  spelled
    : ∀ {c : ContextId} {k : Symbol} {slot : Slot},
        (st.context c).slots[k]? = some slot
        → slot.dependencies = SymbolSet.spellings slot.node.dependencies slot.space
  fixed
    : ∀ {c : ContextId} {k : Symbol} {slot : Slot} {v w : Value},
        (st.context c).slots[k]? = some slot → slot.node.constant? = some w
        → st.value? slot = some v → v = w

/-- The store that a session starts with is coherent: it has one empty context. -/
theorem Coherent.start (host : Host) (arrangements : Nat → Arrangement)
    : (Store.start host arrangements).Coherent := by
  have single (c : ContextId) : (Store.start host arrangements).context c = Context.empty := by
    cases c <;> simp [context, Store.start]
  constructor
  · intro c
    rw [single]
    exact Context.Indexed.empty
  · intro c k slot stored
    rw [single] at stored
    simp [Context.empty] at stored
  · intro id v known
    simp [Store.start] at known
  · intro c k slot stored
    rw [single] at stored
    simp [Context.empty] at stored
  · intro c k d slot stored
    rw [single] at stored
    simp [Context.empty] at stored
  · intro c k slot stored
    rw [single] at stored
    simp [Context.empty] at stored
  · intro c k slot v w stored
    rw [single] at stored
    simp [Context.empty] at stored

/-- A slot is determined by its name. -/
theorem Coherent.eq_of_id {st : Store} (coherent : st.Coherent) {c k : ContextId}
    {slot other : Slot} (found : st.Finds c slot) (also : st.Finds k other)
    (same : slot.id = other.id)
    : slot = other := by
  obtain ⟨d, stored⟩ := found
  obtain ⟨e, held⟩ := also
  obtain ⟨owner, name⟩ : slot.owner = other.owner ∧ slot.symbol = other.symbol := by
    simpa [Slot.id] using same
  have here := coherent.stored stored
  have there := coherent.stored held
  rw [← (coherent.indexed c).ownSymbol stored] at here
  rw [← (coherent.indexed k).ownSymbol held, ← owner, ← name] at there
  exact Option.some.inj (here.symm.trans there)

-----------------------------------------------------------------------------------------
-- Steps
-----------------------------------------------------------------------------------------

variable {st after : Store} {c k : ContextId} {space : String} {s d : Symbol} {node : Node}
  {b : Bindings} {slot : Slot}

/-- A slot of the context that a definition adds is a slot of its own, or a slot of the context
before that does not reach the defined symbol.
-/
theorem Coherent.added_slot (coherent : st.Coherent) {added : Symbol}
    (stored
      : ((st.context c).define st.contexts.size space s node b).slots[added]? = some slot)
    : slot.owner = st.contexts.size
      ∨ ((st.context c).slots[added]? = some slot
        ∧ ¬(st.context c).Reaches added (s.qualify space) ∧ added ≠ s.qualify space) := by
  by_cases same : added = s.qualify space
  · subst same
    rw [Context.getElem?_define_self] at stored
    obtain rfl := Option.some.inj stored
    exact Or.inl rfl
  · obtain ⟨renewed, kept⟩ :=
      (coherent.indexed c).getElem?_define_of_ne st.contexts.size node b same
    by_cases reaches : (st.context c).Reaches added (s.qualify space)
    · rw [renewed reaches] at stored
      obtain ⟨old, _, rfl⟩ := Option.map_eq_some_iff.mp stored
      exact Or.inl rfl
    · rw [kept reaches] at stored
      exact Or.inr ⟨stored, reaches, same⟩

/-- A definition keeps a store coherent. Witness: old contexts stay as they are; the new one owns
its new slots, and with the owner of a kept slot it agrees because the context before does and
nothing that the slot reaches was replaced.
-/
theorem Coherent.define (coherent : st.Coherent)
    : (st.define c space s node b).2.Coherent := by
  have fresh : (st.define c space s node b).2.context st.contexts.size
      = (st.context c).define st.contexts.size space s node b := by
    rw [context_define, if_pos rfl]
  have spelled {e : Symbol} {slot : Slot}
      (stored : ((st.context c).define st.contexts.size space s node b).slots[e]? = some slot)
      : slot.dependencies = SymbolSet.spellings slot.node.dependencies slot.space := by
    rw [Context.getElem?_define] at stored
    split at stored
    · rw [← Option.some.inj stored]
      rfl
    · split at stored
      · obtain ⟨old, held, rfl⟩ := Option.map_eq_some_iff.mp stored
        have before := coherent.spelled held
        exact before
      · exact coherent.spelled stored
  have older {k : ContextId} {e : Symbol} {slot : Slot}
      (stored : (st.context k).slots[e]? = some slot) : slot.owner < st.contexts.size :=
    Nat.lt_of_le_of_lt (coherent.owned stored) (lt_size_of_slot stored)
  constructor
  · intro k
    rw [context_define]
    split
    · exact (coherent.indexed c).define
    · exact coherent.indexed k
  · intro k e slot stored
    rw [context_define] at stored
    split at stored
    · rename_i new
      subst new
      rcases coherent.added_slot stored with own | ⟨old, _, _⟩
      · exact Nat.le_of_eq own
      · exact Nat.le_of_lt (older old)
    · exact coherent.owned stored
  · intro id v known
    rw [size_define]
    exact Nat.lt_succ_of_lt (coherent.remembered known)
  · intro k e slot stored
    rw [context_define] at stored
    split at stored
    · rcases coherent.added_slot stored with own | ⟨old, _, _⟩
      · rw [own, fresh]
        exact stored
      · rw [context_define_of_lt (older old)]
        exact coherent.stored old
    · rw [context_define_of_lt (older stored)]
      exact coherent.stored stored
  · intro k e d slot stored path
    rw [context_define] at stored path ⊢
    rw [context_define]
    split at stored
    · rename_i new
      rw [if_pos new] at path
      rw [if_pos new]
      rcases coherent.added_slot stored with own | ⟨old, apart, other⟩
      · rw [if_pos own]
      · obtain ⟨before, same⟩ := (coherent.indexed c).kept_reach apart other path
        rw [if_neg (Nat.ne_of_lt (older old)), coherent.agrees old before, same]
    · rename_i kept
      rw [if_neg kept] at path
      rw [if_neg kept, if_neg (Nat.ne_of_lt (older stored)), coherent.agrees stored path]
  · intro k e slot stored
    rw [context_define] at stored
    split at stored
    · exact spelled stored
    · exact coherent.spelled stored
  · intro k e slot v w stored constant known
    rw [context_define] at stored
    split at stored
    · rcases coherent.added_slot stored with own | ⟨old, _, _⟩
      · exact absurd own (Nat.ne_of_lt (coherent.remembered known))
      · exact coherent.fixed old constant known
    · exact coherent.fixed stored constant known

/-- A store stays coherent when a slot remembers a value, its constant if it has one. -/
theorem Coherent.remember (coherent : st.Coherent) (found : st.Finds c slot) {v : Value}
    (constant : ∀ w, slot.node.constant? = some w → v = w)
    : (st.remember slot v).Coherent where
  indexed := coherent.indexed
  owned := coherent.owned
  stored := coherent.stored
  agrees := coherent.agrees
  spelled := coherent.spelled
  fixed := by
    intro k e other u w stored unchanging known
    simp only [Store.value?, Store.remember, Std.ExtTreeMap.getElem?_insert,
      Std.LawfulEqCmp.compare_eq_iff_eq] at known
    split at known
    · rename_i same
      obtain rfl := coherent.eq_of_id found ⟨e, stored⟩ same
      exact Option.some.inj known ▸ constant w unchanging
    · exact coherent.fixed stored unchanging known
  remembered := by
    intro id w known
    simp only [Store.remember, Std.ExtTreeMap.getElem?_insert,
      Std.LawfulEqCmp.compare_eq_iff_eq] at known
    split at known
    · rename_i same
      subst same
      obtain ⟨e, stored⟩ := found
      exact Nat.lt_of_le_of_lt (coherent.owned stored) (lt_size_of_slot stored)
    · exact coherent.remembered known

/-- Every step keeps a store coherent, by its kind. -/
theorem Step.coherent (step : Step st after) (coherent : st.Coherent)
    : after.Coherent := by
  cases step with
  | define => exact coherent.define
  | remember found fixed => exact coherent.remember found fixed
  | _ =>
      exact ⟨coherent.indexed, coherent.owned, coherent.remembered, coherent.stored,
        coherent.agrees, coherent.spelled, coherent.fixed⟩

/-- So do several steps. Witness: induction on them. -/
theorem Leads.coherent (leads : st.Leads after) (coherent : st.Coherent)
    : after.Coherent := by
  induction leads with
  | refl => exact coherent
  | tail _ last ih => exact last.coherent ih

/-- Every reached store is coherent, by the start and the steps. -/
theorem Reached.coherent (reached : st.Reached)
    : st.Coherent :=
  reached.induct Coherent.start Step.coherent

end Store
end IncrementalLisp
