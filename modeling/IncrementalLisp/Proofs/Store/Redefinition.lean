import IncrementalLisp.Proofs.Levels.Tower
import IncrementalLisp.Proofs.Store.Independence

/-! What a redefinition changes in a reached store, and what the evaluation of a slot relies on:
the dependents index of every context is exact, every context agrees with the owners of its slots,
and a definition renews the slots that depend on its symbol and no others.
-/

namespace IncrementalLisp

namespace Store

open Machine

-----------------------------------------------------------------------------------------
-- The dependents index
-----------------------------------------------------------------------------------------

/-- In every context of a reached store the direct dependents of a symbol are the symbols whose
slots have it among their dependencies; the index has no entry without dependents; and every slot
stands under its own symbol, which is qualified.
-/
theorem index_reverses_dependencies {st : Store} (reached : st.Reached) (c : ContextId)
    : (∀ d k : Symbol, k ∈ (st.context c).directDependents d
        ↔ ∃ slot, (st.context c).slots[k]? = some slot ∧ d ∈ slot.dependencies)
      ∧ (∀ d : Symbol, (st.context c).dependents[d]? ≠ some ∅)
      ∧ (∀ (k : Symbol) (slot : Slot),
          (st.context c).slots[k]? = some slot → slot.symbol = k ∧ k.isQualified) := by
  have indexed := reached.coherent.indexed c
  refine ⟨indexed.reverse, ?_, ?_⟩
  · intro d idle
    exact indexed.busy d ∅ idle rfl
  · intro k slot stored
    exact ⟨indexed.ownSymbol stored, indexed.qualified stored⟩

/-- A symbol defined as itself is found in the index as its own dependent, so its slot is there. -/
theorem circular_definition_indexed
    : let st := ((Store.start ⟨[], []⟩).define 0 "user" (.bare "x") (.lookup (.bare "x")) []).2
      st.Reached
      ∧ ∃ slot, (st.context 1).slots[Symbol.inSpace "user" "x"]? = some slot
          ∧ .inSpace "user" "x" ∈ slot.dependencies := by
  intro st
  have reached : st.Reached := Reached.leads (.start _) (.single (.define ..))
  refine ⟨reached, ((index_reverses_dependencies reached 1).1 _ _).mp ?_⟩
  decide +kernel

-----------------------------------------------------------------------------------------
-- Owners
-----------------------------------------------------------------------------------------

/-- A path through the slots of the owner of a slot is one through those of the context as well:
the two agree on each slot that it meets.
-/
theorem Coherent.reaches_of_owner {st : Store} (coherent : st.Coherent) {c : ContextId}
    {k d : Symbol} {slot : Slot} (stored : (st.context c).slots[k]? = some slot)
    (path : (st.context slot.owner).Reaches k d)
    : (st.context c).Reaches k d := by
  induction path with
  | single edge =>
      obtain ⟨own, held, dependency⟩ := edge
      rw [coherent.stored stored] at held
      exact .single ⟨own, stored.trans held, dependency⟩
  | tail _ edge ih =>
      obtain ⟨next, held, dependency⟩ := edge
      rw [coherent.agrees stored ih] at held
      exact ih.tail ⟨next, held, dependency⟩

/-- A slot of a context of a reached store is stored by its owner and by no older context, and
every symbol that it reaches, by the slots of the context or by those of the owner, has the same
slot in both or in neither.
-/
theorem agrees_with_owner {st : Store} (reached : st.Reached) {c : ContextId} {k : Symbol}
    {slot : Slot} (stored : (st.context c).slots[k]? = some slot)
    : (st.context slot.owner).slots[k]? = some slot
      ∧ (∀ older < slot.owner, ∀ e : Symbol, (st.context older).slots[e]? ≠ some slot)
      ∧ ∀ d, (st.context c).Reaches k d ∨ (st.context slot.owner).Reaches k d
          → (st.context c).slots[d]? = (st.context slot.owner).slots[d]? := by
  have coherent := reached.coherent
  refine ⟨coherent.stored stored, ?_, ?_⟩
  · intro older younger e held
    exact Nat.not_lt.mpr (coherent.owned held) younger
  · intro d path
    have inner : (st.context c).Reaches k d := by
      rcases path with inside | outside
      · exact inside
      · exact coherent.reaches_of_owner stored outside
    exact (coherent.agrees stored inner).symm

/-- A definition of another symbol keeps a slot, which then is older than its context. -/
theorem kept_slot_agrees_with_owner
    : let first := (Store.start ⟨[], []⟩).define 0 "user" (.bare "x") (.lookup (.bare "y")) []
      let st := (first.2.define 1 "user" (.bare "z") (.constant .nil) []).2
      let slot := Context.newSlot 1 "user" (.bare "x") (.lookup (.bare "y")) []
      (st.Reached ∧ (st.context 2).slots[Symbol.inSpace "user" "x"]? = some slot)
      ∧ (st.context 2).slots[Symbol.inSpace "user" "y"]?
        = (st.context 1).slots[Symbol.inSpace "user" "y"]? := by
  intro first st slot
  have reached : st.Reached :=
    Reached.leads (.start _) (.tail (.single (.define ..)) (.define ..))
  have stored : (st.context 2).slots[Symbol.inSpace "user" "x"]? = some slot := rfl
  refine ⟨⟨reached, stored⟩, ?_⟩
  have agrees := (agrees_with_owner reached stored).2.2
  exact agrees _ (.inl (.single ⟨slot, stored, by decide +kernel⟩))

-----------------------------------------------------------------------------------------
-- Renewal
-----------------------------------------------------------------------------------------

/-- What a definition of a symbol in a context makes of a store: another context, in which the
symbol has a new slot and the slots that reach it are new, none of them computed, and in which all
other slots are those of the context before, with their values.
-/
structure Renews (before : Store) (c : ContextId) (new : Slot) (after : Store) : Prop where
  added : new.owner = before.contexts.size
  defined
    : (after.context new.owner).slots[new.symbol]? = some new ∧ after.value? new = none
  renewed
    : ∀ {k slot}, k ≠ new.symbol → (before.context c).slots[k]? = some slot
        → (before.context c).Reaches k new.symbol
        → (after.context new.owner).slots[k]? = some (slot.ownedBy new.owner)
          ∧ after.value? (slot.ownedBy new.owner) = none
  kept
    : ∀ {k slot}, k ≠ new.symbol → (before.context c).slots[k]? = some slot
        → ¬(before.context c).Reaches k new.symbol
        → (after.context new.owner).slots[k]? = some slot
          ∧ after.value? slot = before.value? slot
  noFurther
    : ∀ k ∈ (after.context new.owner).slots, k = new.symbol ∨ k ∈ (before.context c).slots

/-- A slot of a context yet to come has no value. -/
theorem Coherent.value?_of_new {st : Store} (coherent : st.Coherent) {slot : Slot}
    (own : slot.owner = st.contexts.size)
    : st.value? slot = none := by
  cases known : st.value? slot with
  | none => rfl
  | some v =>
      have older : slot.owner < st.contexts.size := coherent.remembered known
      exact absurd own (Nat.ne_of_lt older)

/-- A definition renews exactly the slots that depend on its symbol, in a coherent store. -/
theorem Coherent.renews {st : Store} (coherent : st.Coherent) (c : ContextId) (space : String)
    (s : Symbol) (node : Node) (b : Bindings)
    : st.Renews c (Context.newSlot st.contexts.size space s node b)
        (st.define c space s node b).2 := by
  have fresh : (st.define c space s node b).2.context st.contexts.size
      = (st.context c).define st.contexts.size space s node b := by
    rw [context_define, if_pos rfl]
  have indexed := coherent.indexed c
  constructor
  · rfl
  · constructor
    · change ((st.define c space s node b).2.context st.contexts.size).slots[_]? = _
      rw [fresh]
      exact Context.getElem?_define_self
    · exact coherent.value?_of_new rfl
  · intro k slot other stored reaches
    constructor
    · change ((st.define c space s node b).2.context st.contexts.size).slots[_]? = _
      rw [fresh, (indexed.getElem?_define_of_ne _ node b other).1 reaches, stored]
      rfl
    · exact coherent.value?_of_new rfl
  · intro k slot other stored apart
    constructor
    · change ((st.define c space s node b).2.context st.contexts.size).slots[_]? = _
      rw [fresh, (indexed.getElem?_define_of_ne _ node b other).2 apart, stored]
    · rfl
  · intro k found
    change k ∈ ((st.define c space s node b).2.context st.contexts.size).slots at found
    rw [fresh, ← Std.ExtTreeMap.isSome_getElem?_iff_mem, Context.getElem?_define] at found
    rw [← Std.ExtTreeMap.isSome_getElem?_iff_mem]
    split at found
    · exact Or.inl ‹_›
    · split at found
      · rw [Option.isSome_map] at found
        exact Or.inr found
      · exact Or.inr found

/-- The search for the current namespace always finds one, unless it runs out of fuel. -/
theorem currentSpace_finds (m : Machine) (c : ContextId) (scope : Scope) (st : Store)
    : (∃ after, (m.currentSpace c).outcome scope st = (.error .outOfFuel, after))
      ∨ ∃ space after, (m.currentSpace c).outcome scope st = (.ok space, after) := by
  unfold Machine.currentSpace
  rw [Run.outcome_bind, Run.outcome_context]
  dsimp only
  split
  · exact Or.inr ⟨_, _, rfl⟩
  · rw [Run.outcome_bind, Run.outcome_attempt]
    rename_i slot _
    rcases (m.force slot c).outcome scope st with ⟨result, after⟩
    cases result with
    | ok v => cases v <;> exact Or.inr ⟨_, _, rfl⟩
    | error h =>
        cases h with
        | error e => exact Or.inr ⟨_, _, rfl⟩
        | outOfFuel => exact Or.inl ⟨_, rfl⟩

/-- A definition runs out of fuel exactly where the search for the namespace does, and otherwise
makes a context in which exactly the slots that reach the qualified symbol are renewed. Witness:
what is found in the store in which the namespace is known.
-/
theorem defines_after_currentSpace {st : Store} (reached : st.Reached) {c : ContextId}
    (there : c < st.contexts.size) (level : Nat) (scope : Scope) (s : Symbol) (node : Node)
    (b : Bindings)
    : ((∃ after, ((ofLevels level).currentSpace c).outcome scope st = (.error .outOfFuel, after))
        ∧ ∃ after, ((ofLevels level).define c s node b).outcome scope st
            = (.error .outOfFuel, after))
      ∨ ∃ space found d after,
          ((ofLevels level).currentSpace c).outcome scope st = (.ok space, found)
          ∧ ((ofLevels level).define c s node b).outcome scope st = (.ok d, after)
          ∧ found.context c = st.context c
          ∧ (∀ slot v, st.value? slot = some v → found.value? slot = some v)
          ∧ found.Renews c (Context.newSlot d space s node b) after := by
  have leads : st.Leads (((ofLevels level).currentSpace c).outcome scope st).2 :=
    Run.Follows.follows (P := Leads) scope st
  have keeps := Run.Follows.follows (P := fun st after =>
      ∀ (id : SlotId) (v : Value), st.values[id]? = some v → after.values[id]? = some v)
    (x := (ofLevels level).currentSpace c) scope st
  unfold Machine.define
  rw [Run.outcome_bind]
  rcases currentSpace_finds (ofLevels level) c scope st with
    ⟨after, ends⟩ | ⟨space, found, ends⟩
  · exact Or.inl ⟨⟨after, ends⟩, after, by rw [ends]⟩
  · rw [ends] at leads keeps
    rw [ends]
    refine Or.inr ⟨space, found, found.contexts.size, (found.define c space s node b).2, rfl, rfl,
      leads.grows.2 c there, fun slot => keeps slot.id, ?_⟩
    exact (reached.leads leads).coherent.renews c space s node b

/-- A definition on a context of a reached store renews exactly the dependents of its symbol. It
comes to its end on every machine on which the search for the current namespace does, and on these
only: always, if the namespace is a constant, by one level. If the search ends on some machine, then
almost all machines find the same namespace, in a store that forgot no value, and make the same
context, in which exactly the slots that reach the qualified symbol are renewed. Witness: what one
machine comes to, almost all do.
-/
theorem define_renews_exactly_dependents {st : Store} (reached : st.Reached) {c : ContextId}
    (there : c < st.contexts.size) (scope : Scope) (s : Symbol) (node : Node) (b : Bindings)
    : (∀ level, (((ofLevels level).define c s node b).outcome scope st).1 = .error .outOfFuel
        ↔ (((ofLevels level).currentSpace c).outcome scope st).1 = .error .outOfFuel)
      ∧ (∀ space, (st.context c).space? = some space → ∀ level,
          (((ofLevels (level + 1)).currentSpace c).outcome scope st).1 = .ok space)
      ∧ ∀ level, (((ofLevels level).currentSpace c).outcome scope st).1 ≠ .error .outOfFuel →
          ∃ space found d after,
            (∀ higher ≥ level,
              ((ofLevels higher).currentSpace c).outcome scope st = (.ok space, found)
              ∧ ((ofLevels higher).define c s node b).outcome scope st = (.ok d, after))
            ∧ found.context c = st.context c
            ∧ (∀ slot v, st.value? slot = some v → found.value? slot = some v)
            ∧ found.Renews c (Context.newSlot d space s node b) after := by
  have each (level : Nat) := defines_after_currentSpace reached there level scope s node b
  refine ⟨fun level => ?_, fun space settled level => ?_, fun level ended => ?_⟩
  · rcases each level with ⟨⟨_, searched⟩, _, defined⟩ | ⟨_, _, _, _, searched, defined, _⟩
    · rw [searched, defined]
      exact iff_of_true rfl rfl
    · rw [searched, defined]
      exact ⟨nofun, nofun⟩
  · obtain ⟨_, searched, _⟩ := currentSpace_of_space? level scope reached.coherent settled
    rw [searched]
  · rcases each level with ⟨⟨_, searched⟩, _⟩ | ⟨space, found, d, after, searched, defined, rest⟩
    · exact absurd (by rw [searched]) ended
    · refine ⟨space, found, d, after, fun higher le => ?_, rest⟩
      have machines : (ofLevels level).Below (ofLevels higher) := below_of_le le
      have same : Run.Below ((ofLevels level).currentSpace c) ((ofLevels higher).currentSpace c) :=
        inferInstance
      have alike : Run.Below ((ofLevels level).define c s node b)
          ((ofLevels higher).define c s node b) :=
        inferInstance
      constructor
      · rw [← searched]
        exact same.below scope st (by rw [searched]; exact Run.ok_ne_outOfFuel)
      · rw [← defined]
        exact alike.below scope st (by rw [defined]; exact Run.ok_ne_outOfFuel)

/-- A symbol and one that uses it, redefined: the slot of the second is renewed. -/
theorem dependent_renewed_by_define
    : let x := Symbol.inSpace coreSpace "x"
      let y := Symbol.inSpace coreSpace "y"
      let first := (Store.start ⟨[], []⟩).define 0 coreSpace x (.constant .nil) []
      let st := (first.2.define 1 coreSpace y (.lookup x) []).2
      let slot := Context.newSlot 2 coreSpace y (.lookup x) []
      (st.Reached ∧ 2 < st.contexts.size)
      ∧ ∃ d after,
          ((Machine.ofLevels 1).define 2 x (.constant (.bool true)) []).outcome (.outermost 1) st
            = (.ok d, after)
          ∧ (after.context d).slots[y]? = some (slot.ownedBy d) := by
  intro x y first st slot
  have reached : st.Reached :=
    Reached.leads (.start _) (.tail (.single (.define ..)) (.define ..))
  have there : 2 < st.contexts.size := by decide +kernel
  refine ⟨⟨reached, there⟩, ?_⟩
  obtain ⟨-, searched, renewed⟩ :=
    define_renews_exactly_dependents reached there (.outermost 1) x (.constant (.bool true)) []
  have ended := searched coreSpace (by decide +kernel) 0
  obtain ⟨_, found, d, after, almost, same, _, renews⟩ := renewed 1 (by rw [ended]; nofun)
  have stored : (found.context 2).slots[y]? = some slot := by
    rw [same, context_define, if_pos (by decide +kernel)]
    exact Context.getElem?_define_self
  have uses : (found.context 2).Reaches y x :=
    .single ⟨slot, stored, by decide +kernel⟩
  have other : y ≠ x := by decide
  exact ⟨d, after, (almost 1 (Nat.le_refl 1)).2, (renews.renewed other stored uses).1⟩

end Store
end IncrementalLisp
