import IncrementalLisp.Proofs.Context.Definition

/-! Definitions of different symbols in either order. The second of two definitions searches a graph
that the first one changed, but a path that the first one made or broke passes its symbol, so both
orders renew the same slots: those that reach the one symbol or the other in the context before.
-/

namespace IncrementalLisp

/-- A path leads to the same end where the relation is another one at a single point, or it leads to
that point. Witness: induction along the path, up to the point.
-/
theorem reaches_or_reaches {r r' : Symbol → Symbol → Prop} {q k d : Symbol}
    (agree : ∀ k ≠ q, ∀ d, r k d → r' k d) (other : k ≠ q) (path : Relation.TransGen r k d)
    : Relation.TransGen r' k d ∨ Relation.TransGen r' k q := by
  induction path using Relation.TransGen.head_induction_on with
  | single edge => exact Or.inl (.single (agree _ other _ edge))
  | @head k m edge _ ih =>
      have first := agree k other m edge
      by_cases point : m = q
      · subst point
        exact Or.inr (.single first)
      · exact (ih point).imp (.head first) (.head first)

namespace Context

variable {c d : Context} {owner : ContextId} {space : String} {s t k e : Symbol} {node : Node}
  {b : Bindings} {slot : Slot}

-----------------------------------------------------------------------------------------
-- Renewed slots
-----------------------------------------------------------------------------------------

/-- A definition changes nothing about which slots reach a symbol or else the defined one. -/
theorem reaches_define_or_self (owner : ContextId) (node : Node) (b : Bindings)
    (other : k ≠ s.qualify space)
    : (c.define owner space s node b).Reaches k e
        ∨ (c.define owner space s node b).Reaches k (s.qualify space)
      ↔ c.Reaches k e ∨ c.Reaches k (s.qualify space) := by
  have before {d} (path : (c.define owner space s node b).Reaches k d)
      : c.Reaches k d ∨ c.Reaches k (s.qualify space) :=
    reaches_or_reaches (fun _ other _ => (uses_define_of_ne other).mp) other path
  have after {d} (path : c.Reaches k d)
      : (c.define owner space s node b).Reaches k d
        ∨ (c.define owner space s node b).Reaches k (s.qualify space) :=
    reaches_or_reaches (fun _ other _ => (uses_define_of_ne other).mpr) other path
  constructor
  · exact fun either => either.elim before fun path => (before path).elim Or.inr Or.inr
  · exact fun either => either.elim after fun path => (after path).elim Or.inr Or.inr

/-- What two definitions renew, one after the other, is what reaches one of the symbols before. -/
theorem reaches_define_define (owner : ContextId) (node : Node) (b : Bindings)
    (other : k ≠ s.qualify space)
    : c.Reaches k (s.qualify space) ∨ (c.define owner space s node b).Reaches k e
      ↔ c.Reaches k (s.qualify space) ∨ c.Reaches k e := by
  have self : (c.define owner space s node b).Reaches k (s.qualify space)
      ↔ c.Reaches k (s.qualify space) := by
    simpa only [or_self] using
      reaches_define_or_self (c := c) (e := s.qualify space) owner node b other
  rw [← self, or_comm, reaches_define_or_self owner node b other, or_comm, self]

/-- (c.Apart k d) says that the slot of k is not that of d and does not reach it. -/
def Apart (c : Context) (k d : Symbol)
    : Prop :=
  k ≠ d ∧ ¬c.Reaches k d

/-- Of the slots of a context a definition keeps those apart from its symbol. Witness: any other
slot that it leaves is owned by the new context.
-/
theorem Indexed.kept_define (indexed : c.Indexed) (older : slot.owner ≠ owner)
    : (c.define owner space s node b).slots[k]? = some slot
      ↔ c.slots[k]? = some slot ∧ c.Apart k (s.qualify space) := by
  unfold Apart
  by_cases same : k = s.qualify space
  · have own : newSlot owner space s node b ≠ slot := by
      rintro rfl
      exact older rfl
    simp [same, getElem?_define_self, own]
  · obtain ⟨renewed, kept⟩ := indexed.getElem?_define_of_ne owner node b same
    by_cases reaches : c.Reaches k (s.qualify space)
    · have gone : c.slots[k]?.map (·.ownedBy owner) ≠ some slot := by
        intro found
        obtain ⟨old, _, rfl⟩ := Option.map_eq_some_iff.mp found
        exact older rfl
      simp [renewed reaches, gone, reaches]
    · simp [kept reaches, same, reaches]

/-- Two definitions keep the slots apart from both of their symbols. -/
theorem Indexed.kept_define_define (indexed : c.Indexed) {last : ContextId} {node' : Node}
    {b' : Bindings} (older : slot.owner ≠ owner) (older' : slot.owner ≠ last)
    : ((c.define owner space s node b).define last space t node' b').slots[k]? = some slot
      ↔ c.slots[k]? = some slot ∧ c.Apart k (s.qualify space) ∧ c.Apart k (t.qualify space) := by
  rw [indexed.define.kept_define older', indexed.kept_define older]
  unfold Apart
  by_cases same : k = s.qualify space
  · simp [same]
  · have either := reaches_define_define (c := c) (e := t.qualify space) owner node b same
    tauto

-----------------------------------------------------------------------------------------
-- The same definitions
-----------------------------------------------------------------------------------------

/-- Two contexts in which the same symbols are defined, by slots that differ at most in the contexts
that own them, and with the same dependents index.
-/
structure SameDefinitions (c d : Context) : Prop where
  symbols : c.symbols = d.symbols
  slots
    : ∀ (k : Symbol) (owner : ContextId),
        c.slots[k]?.map (·.ownedBy owner) = d.slots[k]?.map (·.ownedBy owner)
  dependents : c.dependents = d.dependents

/-- A slot under another owner uses what it used before, since its dependencies stay. -/
theorem uses_iff_ownedBy (owner : ContextId)
    : c.Uses k e
      ↔ ∃ slot, c.slots[k]?.map (·.ownedBy owner) = some slot ∧ e ∈ slot.dependencies := by
  unfold Uses
  constructor
  · rintro ⟨slot, stored, dependency⟩
    exact ⟨slot.ownedBy owner, by rw [stored, Option.map_some], dependency⟩
  · rintro ⟨slot, found, dependency⟩
    obtain ⟨old, stored, rfl⟩ := Option.map_eq_some_iff.mp found
    exact ⟨old, stored, dependency⟩

/-- An index without idle entries is determined by its edges. -/
theorem eq_of_linked {index index' : SymbolMap SymbolSet} (busy : noneIdle index)
    (busy' : noneIdle index') (same : ∀ d k, linked index d k ↔ linked index' d k)
    : index = index' := by
  refine Std.ExtTreeMap.ext_getElem? fun d => ?_
  have members : (index[d]?).getD ∅ = (index'[d]?).getD ∅ := Std.ExtTreeSet.ext_mem (same d)
  cases found : index[d]? with
  | none =>
      cases found' : index'[d]? with
      | none => rfl
      | some entry =>
          rw [found, found'] at members
          exact absurd members.symm (busy' d entry found')
  | some entry =>
      cases found' : index'[d]? with
      | none =>
          rw [found, found'] at members
          exact absurd members (busy d entry found)
      | some entry' =>
          rw [found, found'] at members
          exact congrArg some members

/-- Indexed contexts whose slots differ in their owners alone have the same definitions. Witness:
their symbols are those of the slots given to one owner, and their index is determined by the
dependencies of the slots.
-/
theorem Indexed.sameDefinitions (indexed : c.Indexed) (indexed' : d.Indexed)
    (slots
      : ∀ (k : Symbol) (owner : ContextId),
          c.slots[k]?.map (·.ownedBy owner) = d.slots[k]?.map (·.ownedBy owner))
    : c.SameDefinitions d where
  symbols := by
    have owned : c.slots.map (fun _ slot => slot.ownedBy 0)
        = d.slots.map (fun _ slot => slot.ownedBy 0) := by
      refine Std.ExtTreeMap.ext_getElem? fun k => ?_
      rw [Std.ExtTreeMap.getElem?_map, Std.ExtTreeMap.getElem?_map]
      exact slots k 0
    have names := congrArg Std.ExtTreeMap.keys owned
    rwa [Std.ExtTreeMap.keys_map, Std.ExtTreeMap.keys_map] at names
  slots := slots
  dependents := by
    refine eq_of_linked indexed.busy indexed'.busy fun e k => ?_
    change k ∈ c.directDependents e ↔ k ∈ d.directDependents e
    rw [indexed.reverse, indexed'.reverse, uses_iff_ownedBy 0, slots, ← uses_iff_ownedBy]

/-- A definition exchanges the slot of its symbol and leaves all others as they are, renewed or not.
-/
theorem ownedBy_define (last : ContextId)
    : (c.define owner space s node b).slots[k]?.map (·.ownedBy last)
      = if k = s.qualify space then some (newSlot last space s node b)
        else c.slots[k]?.map (·.ownedBy last) := by
  rw [getElem?_define]
  split
  · rfl
  · split
    · rw [Option.map_map]
      rfl
    · rfl

/-- Definitions of different symbols have the same result in either order. -/
theorem Indexed.define_comm (indexed : c.Indexed) {first last first' last' : ContextId}
    {node' : Node} {b' : Bindings} (differ : s.qualify space ≠ t.qualify space)
    : ((c.define first space s node b).define last space t node' b').SameDefinitions
        ((c.define first' space t node' b').define last' space s node b) := by
  refine indexed.define.define.sameDefinitions indexed.define.define fun k owner => ?_
  simp only [ownedBy_define]
  by_cases early : k = s.qualify space
  · rw [if_pos early, if_neg fun same => differ (early.symm.trans same), if_pos early]
  · rw [if_neg early, if_neg early]

end Context

end IncrementalLisp
