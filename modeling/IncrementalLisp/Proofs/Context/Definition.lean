import IncrementalLisp.Proofs.Context.Closure
import IncrementalLisp.Proofs.Context.Index

/-! What a definition does to a context. It replaces the slot of its symbol, renews the slots
that use the symbol directly or through other slots, and keeps all other slots; the dependents
index stays the reverse of the dependency sets.
-/

namespace IncrementalLisp

/-- The values of a table are those of its entries. -/
theorem SymbolMap.values_eq_map_toList {α : Type} (table : SymbolMap α)
    : table.values = table.toList.map (·.2) := by
  obtain ⟨⟨q⟩⟩ := table
  induction q using Quotient.ind with
  | _ tree =>
      change Std.DTreeMap.Internal.Impl.values _
        = List.map _ (Std.DTreeMap.Internal.Impl.Const.toList _)
      rw [Std.DTreeMap.Internal.Impl.values_eq_map_snd,
        Std.DTreeMap.Internal.Impl.Const.toList_eq_toListModel_map]
      simp [Function.comp_def]

namespace Context

-----------------------------------------------------------------------------------------
-- Use of one symbol by the slot of another
-----------------------------------------------------------------------------------------

/-- (c.Uses k d) says that the slot of k has d among its dependencies. -/
def Uses (c : Context) (k d : Symbol)
    : Prop :=
  ∃ slot, c.slots[k]? = some slot ∧ d ∈ slot.dependencies

/-- (c.Reaches k d) says that the slot of k uses d, directly or through other slots. -/
def Reaches (c : Context)
    : Symbol → Symbol → Prop :=
  Relation.TransGen c.Uses

/-- A context whose index is the reverse of the dependency sets, without idle entries, and whose
slots stand under their own, qualified symbols.
-/
structure Indexed (c : Context) : Prop where
  reverse : ∀ d k, k ∈ c.directDependents d ↔ c.Uses k d
  busy : noneIdle c.dependents
  ownSymbol : ∀ {k : Symbol} {slot : Slot}, c.slots[k]? = some slot → slot.symbol = k
  qualified : ∀ {k : Symbol} {slot : Slot}, c.slots[k]? = some slot → k.isQualified

/-- The empty context is indexed: it has no slots and no dependents. -/
theorem Indexed.empty
    : Indexed .empty where
  reverse := by
    intro d k
    simp [directDependents, Context.empty, Uses]
  busy := by
    intro d found held
    simp [Context.empty] at held
  ownSymbol := by
    intro k slot stored
    simp [Context.empty] at stored
  qualified := by
    intro k slot stored
    simp [Context.empty] at stored

/-- In an indexed context the dependents that the search finds are the symbols whose slots reach
the symbol. Witness: the same path, read along the index and against the dependency sets.
-/
theorem Indexed.mem_transitiveDependents {c : Context} (indexed : c.Indexed) {s k : Symbol}
    : k ∈ c.transitiveDependents s ↔ c.Reaches k s := by
  rw [mem_transitiveDependents_iff_reached]
  have reversed : (fun d k => k ∈ c.directDependents d) = Function.swap c.Uses := by
    funext d k
    exact propext (indexed.reverse d k)
  rw [reversed]
  exact Relation.transGen_swap

-----------------------------------------------------------------------------------------
-- The slots after a definition
-----------------------------------------------------------------------------------------

variable {c : Context} {owner : ContextId} {space : String} {s k d : Symbol} {node : Node}
  {b : Bindings}

/-- Of two owners that a slot is given, the last one counts. -/
@[simp]
theorem ownedBy_ownedBy (slot : Slot) (first last : ContextId)
    : (slot.ownedBy first).ownedBy last = slot.ownedBy last :=
  rfl

/-- Renewing a symbol gives its slot the new owner and leaves the other slots, by cases on the
symbol.
-/
theorem getElem?_renew (slots : SymbolMap Slot)
    : (renew owner slots s)[k]?
      = if s = k then slots[k]?.map (·.ownedBy owner) else slots[k]? := by
  unfold renew
  split
  · rename_i slot held
    simp only [Std.ExtTreeMap.getElem?_insert, Std.LawfulEqCmp.compare_eq_iff_eq]
    split
    · rename_i same
      rw [← same, held, Option.map_some]
    · rfl
  · rename_i absent
    split
    · rename_i same
      rw [← same, absent, Option.map_none]
    · rfl

/-- Renewal along a list of symbols changes the owner of their slots and nothing else.
Witness: induction on the list; a slot renewed twice has the same owner as one renewed once.
-/
theorem getElem?_foldl_renew (symbols : List Symbol) (slots : SymbolMap Slot)
    : (symbols.foldl (renew owner) slots)[k]?
      = if k ∈ symbols then slots[k]?.map (·.ownedBy owner) else slots[k]? := by
  induction symbols generalizing slots with
  | nil => simp
  | cons first rest ih =>
      rw [List.foldl_cons, ih, getElem?_renew]
      by_cases same : first = k
      · subst same
        by_cases again : first ∈ rest <;> simp [again, Function.comp_def]
      · have other : k ≠ first := Ne.symm same
        simp [same, other]

/-- Renewing several symbols gives exactly their slots the new owner, by the fold over them. -/
theorem getElem?_renewed (symbols : SymbolSet)
    : (c.renewed owner symbols)[k]?
      = if k ∈ symbols then c.slots[k]?.map (·.ownedBy owner) else c.slots[k]? := by
  unfold renewed
  rw [Std.ExtTreeSet.foldl_eq_foldl_toList, getElem?_foldl_renew]
  simp only [Std.ExtTreeSet.mem_toList]

/-- The slot that a definition makes. -/
def newSlot (owner : ContextId) (space : String) (s : Symbol) (node : Node) (b : Bindings)
    : Slot :=
  ⟨owner, s.qualify space, node, b, SymbolSet.spellings node.dependencies space, space⟩

/-- A definition stores its new slot, renews the dependents' slots and leaves the others alone. -/
theorem getElem?_define
    : (c.define owner space s node b).slots[k]?
      = if k = s.qualify space then some (newSlot owner space s node b)
        else if k ∈ c.transitiveDependents (s.qualify space) then
          c.slots[k]?.map (·.ownedBy owner)
        else c.slots[k]? := by
  simp only [define, Std.ExtTreeMap.getElem?_insert, Std.LawfulEqCmp.compare_eq_iff_eq,
    getElem?_renewed, newSlot]
  by_cases same : s.qualify space = k
  · simp [same]
  · have other : k ≠ s.qualify space := Ne.symm same
    simp [same, other]

/-- The symbol that is defined has the new slot afterwards. -/
theorem getElem?_define_self
    : (c.define owner space s node b).slots[s.qualify space]?
      = some (newSlot owner space s node b) := by
  simp [getElem?_define]

/-- A slot of another symbol is renewed when its slot reaches the defined symbol, and is the very
same slot when it does not.
-/
theorem Indexed.getElem?_define_of_ne (indexed : c.Indexed) (owner : ContextId) (node : Node)
    (b : Bindings) (other : k ≠ s.qualify space)
    : (c.Reaches k (s.qualify space)
        → (c.define owner space s node b).slots[k]?
          = c.slots[k]?.map (·.ownedBy owner))
      ∧ (¬c.Reaches k (s.qualify space)
        → (c.define owner space s node b).slots[k]? = c.slots[k]?) := by
  rw [getElem?_define, if_neg other]
  constructor
  · intro reaches
    rw [if_pos (indexed.mem_transitiveDependents.mpr reaches)]
  · intro apart
    rw [if_neg (fun found => apart (indexed.mem_transitiveDependents.mp found))]

/-- Under another symbol a definition leaves the dependencies as they are, renewed or not. -/
theorem uses_define_of_ne (other : k ≠ s.qualify space)
    : (c.define owner space s node b).Uses k d ↔ c.Uses k d := by
  unfold Uses
  rw [getElem?_define, if_neg other]
  split
  · constructor
    · rintro ⟨slot, held, dependency⟩
      obtain ⟨old, stored, rfl⟩ := Option.map_eq_some_iff.mp held
      exact ⟨old, stored, dependency⟩
    · rintro ⟨old, stored, dependency⟩
      exact ⟨old.ownedBy owner, by rw [stored, Option.map_some], dependency⟩
  · exact Iff.rfl

/-- The new slot uses the spellings of its node's dependencies, and nothing besides. -/
theorem uses_define_self
    : (c.define owner space s node b).Uses (s.qualify space) d
      ↔ d ∈ SymbolSet.spellings node.dependencies space := by
  unfold Uses
  rw [getElem?_define_self]
  simp [newSlot]

/-- The edges from a symbol after its redefinition: the edges of other symbols as they were, and
those of its own new dependencies.
-/
theorem linked_reindexed (reverse : ∀ d k, linked c.dependents d k ↔ c.Uses k d)
    (dependencies : SymbolSet)
    : linked (c.reindexed s dependencies) d k
      ↔ (k ≠ s ∧ c.Uses k d) ∨ (k = s ∧ d ∈ dependencies) := by
  have old : ∀ old : SymbolSet, (∀ e, e ∈ old ↔ c.Uses s e)
      → (linked (old.foldl (unlink s) c.dependents) d k ↔ k ≠ s ∧ c.Uses k d) := by
    intro old exact_
    rw [Std.ExtTreeSet.foldl_eq_foldl_toList, linked_foldl_unlink, reverse,
      Std.ExtTreeSet.mem_toList, exact_]
    constructor
    · rintro ⟨uses, kept⟩
      exact ⟨fun same => kept ⟨same ▸ uses, same⟩, uses⟩
    · rintro ⟨other, uses⟩
      exact ⟨uses, fun ⟨_, same⟩ => other same⟩
  simp only [reindexed]
  rw [Std.ExtTreeSet.foldl_eq_foldl_toList, linked_foldl_link, Std.ExtTreeSet.mem_toList, old]
  · rw [and_comm (a := d ∈ dependencies)]
  · intro e
    cases stored : c.slots[s]? with
    | none => simp [Uses, stored]
    | some slot => simp [Uses, stored]

/-- No symbol is left idle by the index's update, since neither removing nor adding a link leaves
one.
-/
theorem noneIdle_reindexed (busy : noneIdle c.dependents) (dependencies : SymbolSet)
    : noneIdle (c.reindexed s dependencies) := by
  simp only [reindexed, Std.ExtTreeSet.foldl_eq_foldl_toList]
  exact noneIdle_foldl_link _ (noneIdle_foldl_unlink _ busy)

/-- A definition keeps a context indexed, whatever the defined symbol used before and whatever it
uses now. Witness: the edges of other symbols stay, those of the symbol itself are exchanged.
-/
theorem Indexed.define (indexed : c.Indexed)
    : (c.define owner space s node b).Indexed where
  reverse := by
    intro d k
    change linked (c.reindexed (s.qualify space) _) d k ↔ _
    rw [linked_reindexed indexed.reverse]
    by_cases same : k = s.qualify space
    · subst same
      simp [uses_define_self]
    · simp [same, uses_define_of_ne same]
  busy := noneIdle_reindexed indexed.busy _
  ownSymbol := by
    intro k slot stored
    rw [getElem?_define] at stored
    split at stored
    · rename_i same
      rw [← Option.some.inj stored, same]
      rfl
    · split at stored
      · obtain ⟨old, held, rfl⟩ := Option.map_eq_some_iff.mp stored
        have own : old.symbol = k := indexed.ownSymbol held
        exact own
      · exact indexed.ownSymbol stored
  qualified := by
    intro k slot stored
    rw [getElem?_define] at stored
    split at stored
    · rename_i same
      rw [same]
      exact Symbol.isQualified_qualify space s
    · split at stored
      · obtain ⟨old, held, rfl⟩ := Option.map_eq_some_iff.mp stored
        exact indexed.qualified held
      · exact indexed.qualified stored

/-- The definitions of a context and of what a definition makes of it agree on everything that a
kept slot reaches. Witness: induction along the path; a symbol that it meets neither is the
defined one nor reaches it, for then the kept slot would have been renewed.
-/
theorem Indexed.kept_reach (indexed : c.Indexed)
    (apart : ¬c.Reaches k (s.qualify space)) (other : k ≠ s.qualify space)
    (path : (c.define owner space s node b).Reaches k d)
    : c.Reaches k d
      ∧ (c.define owner space s node b).slots[d]? = c.slots[d]? := by
  have kept {e} (reached : c.Reaches k e)
      : (c.define owner space s node b).slots[e]? = c.slots[e]? := by
    apply (indexed.getElem?_define_of_ne owner node b ?_).2
    · intro onward
      exact apart (reached.trans onward)
    · intro same
      exact apart (same ▸ reached)
  have reached : c.Reaches k d := by
    induction path with
    | single edge => exact .single ((uses_define_of_ne other).mp edge)
    | tail _ edge ih =>
        obtain ⟨slot, stored, dependency⟩ := edge
        exact ih.tail ⟨slot, kept ih ▸ stored, dependency⟩
  exact ⟨reached, kept reached⟩

end Context
end IncrementalLisp
