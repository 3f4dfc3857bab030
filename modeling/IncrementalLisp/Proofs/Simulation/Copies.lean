import IncrementalLisp.Proofs.Simulation.Tower
import IncrementalLisp.Proofs.Store.Grounded

/-! Fresh copies of contexts. The copy of a context has the same definitions, none of them evaluated
and all of them its own. Its slots are similar to those that they were copied from.
-/

namespace IncrementalLisp

/-- The same definitions, none of them evaluated, as slots of another context. -/
def Context.ownedBy (c : Context) (owner : ContextId)
    : Context :=
  ⟨c.slots.map fun _ slot => slot.ownedBy owner, c.dependents⟩

/-- The slots of a context under a new owner are its slots, under that owner. -/
theorem Context.getElem?_ownedBy (c : Context) (owner : ContextId) (k : Symbol)
    : (c.ownedBy owner).slots[k]? = c.slots[k]?.map (·.ownedBy owner) :=
  Std.ExtTreeMap.getElem?_map

/-- They use what they used before. -/
theorem Context.uses_ownedBy {c : Context} {owner : ContextId} {k d : Symbol}
    : (c.ownedBy owner).Uses k d ↔ c.Uses k d := by
  unfold Context.Uses
  rw [Context.getElem?_ownedBy]
  constructor
  · rintro ⟨slot, stored, dependency⟩
    obtain ⟨old, held, rfl⟩ := Option.map_eq_some_iff.mp stored
    exact ⟨old, held, dependency⟩
  · rintro ⟨slot, stored, dependency⟩
    exact ⟨slot.ownedBy owner, by rw [stored]; rfl, dependency⟩

/-- A context stays indexed under a new owner. -/
theorem Context.Indexed.ownedBy {c : Context} (indexed : c.Indexed) (owner : ContextId)
    : (c.ownedBy owner).Indexed where
  reverse := fun d k => (indexed.reverse d k).trans Context.uses_ownedBy.symm
  busy := indexed.busy
  ownSymbol := by
    intro k slot stored
    rw [Context.getElem?_ownedBy] at stored
    obtain ⟨old, held, rfl⟩ := Option.map_eq_some_iff.mp stored
    change old.symbol = k
    exact indexed.ownSymbol held
  qualified := by
    intro k slot stored
    rw [Context.getElem?_ownedBy] at stored
    obtain ⟨old, held, rfl⟩ := Option.map_eq_some_iff.mp stored
    exact indexed.qualified held

namespace Store

/-- The store with a fresh copy of a context, which is the last of its contexts. -/
def copied (st : Store) (c : ContextId)
    : Store :=
  (st.add ((st.context c).ownedBy st.contexts.size)).2

/-- The store in which no slot has a value. -/
def forgotten (st : Store)
    : Store :=
  { st with values := ∅ }

variable {st : Store} {c k : ContextId}

/-- A copy is one more context. -/
@[simp]
theorem size_copied
    : (st.copied c).contexts.size = st.contexts.size + 1 := by
  simp [copied, add]

/-- A copy has the slots under its own number, and the other contexts are as before. -/
theorem context_copied
    : (st.copied c).context k
      = if k = st.contexts.size then (st.context c).ownedBy st.contexts.size
        else st.context k := by
  simp only [context, copied, add, Array.getD_eq_getD_getElem?, Array.getElem?_push]
  split <;> rfl

/-- A copy extends the store. -/
theorem extends_copied (st : Store) (c : ContextId)
    : st.Extends (st.copied c) where
  size := by simp
  same := fun k old => by rw [context_copied, if_neg (Nat.ne_of_lt old)]
  types := rfl
  arrangements := rfl

/-- A slot of the copy is its own; all other slots are those of the store before. -/
theorem slot_of_copied {e : Symbol} {slot : Slot}
    (stored : ((st.copied c).context k).slots[e]? = some slot)
    : (k = st.contexts.size ∧ ∃ old, (st.context c).slots[e]? = some old
        ∧ slot = old.ownedBy st.contexts.size)
      ∨ (k < st.contexts.size ∧ (st.context k).slots[e]? = some slot) := by
  rw [context_copied] at stored
  split at stored
  · rw [Context.getElem?_ownedBy] at stored
    obtain ⟨old, held, rfl⟩ := Option.map_eq_some_iff.mp stored
    exact Or.inl ⟨‹_›, old, held, rfl⟩
  · exact Or.inr ⟨lt_size_of_slot stored, stored⟩

/-- A store stays coherent when a copy of one of its contexts is added. -/
theorem Coherent.copied (coherent : st.Coherent) (c : ContextId)
    : (st.copied c).Coherent := by
  have copy : (st.copied c).context st.contexts.size
      = (st.context c).ownedBy st.contexts.size := by
    rw [context_copied, if_pos rfl]
  have older {k : ContextId} {e : Symbol} {slot : Slot}
      (stored : (st.context k).slots[e]? = some slot) : slot.owner < st.contexts.size :=
    Nat.lt_of_le_of_lt (coherent.owned stored) (lt_size_of_slot stored)
  have before {k : ContextId} (old : k < st.contexts.size)
      : (st.copied c).context k = st.context k :=
    (extends_copied st c).same k old
  constructor
  · intro k
    rw [context_copied]
    split
    · exact (coherent.indexed c).ownedBy _
    · exact coherent.indexed k
  · intro k e slot stored
    rcases slot_of_copied stored with ⟨rfl, old, _, rfl⟩ | ⟨_, held⟩
    · exact Nat.le_refl _
    · exact coherent.owned held
  · intro id v known
    rw [size_copied]
    exact Nat.lt_succ_of_lt (coherent.remembered known)
  · intro k e slot stored
    rcases slot_of_copied stored with ⟨rfl, old, _, rfl⟩ | ⟨_, held⟩
    · exact stored
    · rw [before (older held)]
      exact coherent.stored held
  · intro k e d slot stored path
    rcases slot_of_copied stored with ⟨rfl, old, _, rfl⟩ | ⟨new, held⟩
    · rfl
    · rw [before new] at path
      rw [before (older held), before new]
      exact coherent.agrees held path
  · intro k e slot stored
    rcases slot_of_copied stored with ⟨rfl, old, held, rfl⟩ | ⟨_, held⟩
    · have spelled := coherent.spelled held
      exact spelled
    · exact coherent.spelled held
  · intro k e slot v w stored constant known
    rcases slot_of_copied stored with ⟨rfl, old, held, rfl⟩ | ⟨_, held⟩
    · exact absurd (coherent.remembered known) (Nat.lt_irrefl _)
    · exact coherent.fixed held constant known

/-- A coherent store stays so when its values are forgotten. -/
theorem Coherent.forgotten (coherent : st.Coherent)
    : st.forgotten.Coherent where
  indexed := coherent.indexed
  owned := coherent.owned
  remembered := by
    intro id v known
    simp [Store.forgotten] at known
  stored := coherent.stored
  agrees := coherent.agrees
  spelled := coherent.spelled
  fixed := by
    intro c k slot v w _ _ known
    simp [value?, Store.forgotten] at known

/-- A store that remembers nothing recalls only what is to be recalled. -/
theorem Recalls.forgotten {K : Nat → Slot → Value → Prop} (coherent : st.Coherent)
    (sound : st.host.Sound)
    : Recalls K st.forgotten where
  coherent := coherent.forgotten
  sound := sound
  known := by
    intro c slot v _ known
    simp [value?, Store.forgotten] at known

/-- A store that recalls its values still does with a copy, whose slots are new. -/
theorem Recalls.copied {K : Nat → Slot → Value → Prop} [Lasting K] (recalls : Recalls K st)
    (c : ContextId)
    : Recalls K (st.copied c) where
  coherent := recalls.coherent.copied c
  sound := recalls.sound
  known := by
    rintro k slot v ⟨e, stored⟩ known
    rw [size_copied]
    rcases slot_of_copied stored with ⟨rfl, old, held, rfl⟩ | ⟨_, held⟩
    · exact absurd (recalls.coherent.remembered known) (Nat.lt_irrefl _)
    · exact Lasting.widen (recalls.known ⟨e, held⟩ known) (Nat.le_succ _)

-----------------------------------------------------------------------------------------
-- Similarity of a copy
-----------------------------------------------------------------------------------------

/-- A store with all contexts of another, in which one context is a fresh copy of one of them. -/
structure Duplicates (base fresh : Store) (c d : ContextId) : Prop where
  size : base.contexts.size ≤ fresh.contexts.size
  same : ∀ e < base.contexts.size, fresh.context e = base.context e
  old : c < base.contexts.size
  new : d < fresh.contexts.size
  below : c ≤ d
  copy
    : ∀ k : Symbol, (fresh.context d).slots[k]? = (base.context c).slots[k]?.map (·.ownedBy d)

/-- A slot of the first store with itself, and a slot of the copied context with its copy. -/
inductive Duplicate (base : Store) (c d : ContextId)
    : Pairing where
  | same {e : ContextId} {slot : Slot} (found : base.Finds e slot)
      : Duplicate base c d slot slot
  | copy {slot : Slot} (found : base.Finds c slot)
      : Duplicate base c d slot (slot.ownedBy d)

section Duplicating

variable {base fresh left right : Store} {d : ContextId} (duplicates : base.Duplicates fresh c d)
  (coherent : base.Coherent) (settled : base.Settled) (grounded : base.Grounded)
  (extended : base.Extends left) (extended' : fresh.Extends right)

include duplicates extended extended' in
/-- A context of before agrees with itself on every symbol. -/
theorem Duplicates.agree_same {e : Symbol} {o : ContextId} (old : o < base.contexts.size)
    : left.Agree right (base.Duplicate c d) e o o := by
  unfold Agree
  rw [extended.same o old, extended'.same o (Nat.lt_of_lt_of_le old duplicates.size),
    duplicates.same o old]
  cases stored : (base.context o).slots[e]? with
  | none => exact .none
  | some slot => exact .some (.same ⟨e, stored⟩)

include duplicates extended extended' in
/-- A context and its copy agree on every symbol. -/
theorem Duplicates.agree_copy (e : Symbol)
    : left.Agree right (base.Duplicate c d) e c d := by
  unfold Agree
  rw [extended.same c duplicates.old, extended'.same d duplicates.new, duplicates.copy]
  cases stored : (base.context c).slots[e]? with
  | none => exact .none
  | some slot => exact .some (.copy ⟨e, stored⟩)

include duplicates settled extended extended' in
/-- A context of before matches itself. -/
theorem Duplicates.matched_same {o : ContextId} {size size' : Nat} (old : o < base.contexts.size)
    (within : o < size) (within' : o < size') (names : Symbol → Prop)
    : left.Matched right (base.Duplicate c d) size size' names o o := by
  obtain ⟨space, here⟩ := Option.isSome_iff_exists.mp (settled o)
  refine ⟨within, within', space, ?_, ?_, ?_⟩
  · rw [extended.same o old, here]
  · rw [extended'.same o (Nat.lt_of_lt_of_le old duplicates.size), duplicates.same o old, here]
  · exact fun _ _ _ _ => duplicates.agree_same extended extended' old

include duplicates in
/-- A copy has the namespace of the context, by its slot. -/
theorem Duplicates.space?_copy
    : (fresh.context d).space? = (base.context c).space? := by
  unfold Context.space?
  rw [duplicates.copy]
  cases (base.context c).slots[Symbol.currentSpace]? <;> rfl

include duplicates coherent settled grounded extended extended' in
/-- A slot is similar to itself and to its copy. Witness: what it reads in its owner it reads in the
context that was copied, and there the copy has a copy of the same slot.
-/
theorem Duplicates.similar {slot other : Slot} (related : base.Duplicate c d slot other)
    : left.Similar right slot other := by
  refine ⟨base.Duplicate c d, ?_, related⟩
  intro slot other related
  have owner {e : ContextId} (found : base.Finds e slot) : slot.owner < base.contexts.size := by
    obtain ⟨k, stored⟩ := found
    exact Nat.lt_of_le_of_lt (coherent.owned stored) (lt_size_of_slot stored)
  have inner {e : ContextId} (found : base.Finds e slot) (other : ContextId)
    (younger : slot.owner ≤ other)
      : Fixed (left.Matched right (base.Duplicate c d) slot.owner other)
          (slot.node.contexts ++ contextsOfBindings slot.bindings) := by
    intro x listed names
    have below := grounded.slot found x listed
    exact duplicates.matched_same settled extended extended'
      (Nat.lt_trans below (owner found)) below
      (Nat.lt_of_lt_of_le below younger) names
  cases related with
  | same found =>
      obtain ⟨node, bindings⟩ := fixed_append.mp (inner found slot.owner (Nat.le_refl _))
      refine ⟨.self node, .self bindings, fun _ => rfl, fun _ => ?_, fun _ _ _ _ _ => ?_⟩
      · rw [extended.same _ (owner found),
          extended'.same _ (Nat.lt_of_lt_of_le (owner found) duplicates.size),
          duplicates.same _ (owner found)]
        exact ⟨settled _, settled _⟩
      · exact duplicates.agree_same extended extended' (owner found)
  | copy found =>
      obtain ⟨k, stored⟩ := id found
      have younger : slot.owner ≤ d := Nat.le_trans (coherent.owned stored) duplicates.below
      obtain ⟨node, bindings⟩ := fixed_append.mp (inner found d younger)
      refine ⟨.self node, .self bindings, fun _ => rfl, fun _ => ?_, fun _ s free e spelled => ?_⟩
      · change _ ∧ (right.context d).space?.isSome
        rw [extended.same _ (owner found), extended'.same _ duplicates.new, duplicates.space?_copy]
        exact ⟨settled _, settled _⟩
      · change left.Agree right _ e slot.owner d
        have copied := duplicates.agree_copy extended extended' e
        unfold Agree at copied ⊢
        rw [extended.same _ (owner found), coherent.read_of_owner stored free.1 spelled,
          ← extended.same c duplicates.old]
        exact copied

end Duplicating

end Store
end IncrementalLisp
