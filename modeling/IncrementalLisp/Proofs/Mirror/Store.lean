import IncrementalLisp.Context.Store
import IncrementalLisp.Proofs.Context.Definition
import IncrementalLisp.Proofs.Host.Blind
import IncrementalLisp.Proofs.Mirror.Pass
import IncrementalLisp.Proofs.Store.Survivors

/-! Stores that differ only by a pass: the same contexts with the same definitions in them, except
that values and programs are alike up to the pass. The same contexts live in them, since those
that a program of the pass refers to are held by the surroundings.
-/

namespace IncrementalLisp

-----------------------------------------------------------------------------------------
-- Slots and contexts
-----------------------------------------------------------------------------------------

section Slots

variable (M : Likeness)

/-- Likeness of slots: the same definition of an alike node under alike bindings. -/
structure Slot.Alike (slot other : Slot) : Prop where
  owner : other.owner = slot.owner
  symbol : other.symbol = slot.symbol
  node : slot.node.Alike M other.node
  bindings : BindingsAlike M slot.bindings other.bindings
  dependencies : other.dependencies = slot.dependencies
  space : other.space = slot.space

/-- Likeness of contexts: alike slots for the same symbols, and the same index. -/
structure Context.Alike (c d : Context) : Prop where
  slots : ∀ s : Symbol, Option.Rel (Slot.Alike M) c.slots[s]? d.slots[s]?
  dependents : d.dependents = c.dependents

end Slots

variable {M : Likeness}

/-- Slots that are alike have the same number. -/
theorem Slot.Alike.id_eq {slot other : Slot} (alike : slot.Alike M other)
    : other.id = slot.id := by
  rw [Slot.id, Slot.id, alike.owner, alike.symbol]

/-- They stay alike under one new owner. -/
theorem Slot.Alike.ownedBy {slot other : Slot} (alike : slot.Alike M other) (owner : ContextId)
    : (slot.ownedBy owner).Alike M (other.ownedBy owner) :=
  ⟨rfl, alike.symbol, alike.node, alike.bindings, alike.dependencies, alike.space⟩

/-- A slot is like itself. -/
theorem Slot.Alike.refl (exact : M.Exact) (slot : Slot)
    : slot.Alike M slot :=
  ⟨rfl, rfl, .refl exact _, .refl exact _, rfl, rfl⟩

/-- So is a context, slot by slot. -/
theorem Context.Alike.refl (exact : M.Exact) (c : Context)
    : c.Alike M c := by
  refine ⟨fun s => ?_, rfl⟩
  cases c.slots[s]? with
  | none => exact .none
  | some slot => exact .some (.refl exact slot)

namespace Context.Alike

variable {c d : Context} (alike : c.Alike M d)
include alike

/-- A symbol has the same dependents in contexts that are alike, round by round. -/
theorem transitiveDependents_eq (s : Symbol)
    : d.transitiveDependents s = c.transitiveDependents s := by
  have direct (t : Symbol) : d.directDependents t = c.directDependents t := by
    unfold Context.directDependents
    rw [alike.dependents]
  have wider (found : SymbolSet) : d.withDependents found = c.withDependents found := by
    unfold Context.withDependents
    simp only [direct]
  have closed (rounds : Nat) (found : SymbolSet) : d.closure rounds found
      = c.closure rounds found := by
    induction rounds generalizing found with
    | zero => rfl
    | succ rounds ih =>
        simp only [Context.closure, wider, ih]
  have all : d.allDependents = c.allDependents := by
    unfold Context.allDependents
    rw [alike.dependents]
  unfold Context.transitiveDependents
  rw [all, direct, closed]

/-- The index changes alike for a symbol that depends on the same ones. -/
theorem reindexed_eq (s : Symbol) (dependencies : SymbolSet)
    : d.reindexed s dependencies = c.reindexed s dependencies := by
  have both := alike.slots s
  unfold Context.reindexed
  rw [alike.dependents]
  generalize c.slots[s]? = o, d.slots[s]? = o' at both ⊢
  cases both with
  | none => rfl
  | some slots => simp only [slots.dependencies]

/-- A definition of alike nodes leads to alike contexts. -/
theorem define {node node' : Node} {b b' : Bindings} (nodes : node.Alike M node')
    (bindings : BindingsAlike M b b') (owner : ContextId) (space : String) (s : Symbol)
    : (c.define owner space s node b).Alike M (d.define owner space s node' b') := by
  have same := nodes.dependencies_eq
  refine ⟨fun k => ?_, ?_⟩
  · rw [Context.getElem?_define, Context.getElem?_define, alike.transitiveDependents_eq]
    have old := alike.slots k
    split
    · exact .some ⟨rfl, rfl, nodes, bindings, congrArg (SymbolSet.spellings · space) same, rfl⟩
    · split
      · exact map_rel old fun slots => slots.ownedBy owner
      · exact old
  · unfold Context.define
    dsimp only
    rw [same, alike.reindexed_eq]

/-- A symbol's slots are alike in contexts that are, in its namespace or in the core. -/
theorem slotIn? (space : String) (s : Symbol)
    : Option.Rel (Slot.Alike M) (c.slotIn? space s) (d.slotIn? space s) := by
  have own := alike.slots (s.qualify space)
  have core := alike.slots (s.qualify coreSpace)
  unfold Context.slotIn?
  generalize c.slots[s.qualify space]? = o, d.slots[s.qualify space]? = o' at own ⊢
  cases own with
  | none => exact core
  | some slots => exact .some slots

end Context.Alike

-----------------------------------------------------------------------------------------
-- Stores
-----------------------------------------------------------------------------------------

/-- A slot is among a table's values if it is the slot of some symbol. -/
theorem mem_values {slots : SymbolMap Slot} {slot : Slot}
    : slot ∈ slots.values ↔ ∃ s : Symbol, slots[s]? = some slot := by
  rw [SymbolMap.values_eq_map_toList, List.mem_map]
  constructor
  · rintro ⟨⟨s, _⟩, listed, rfl⟩
    exact ⟨s, Std.ExtTreeMap.mem_toList_iff_getElem?_eq_some.mp listed⟩
  · rintro ⟨s, held⟩
    exact ⟨(s, slot), Std.ExtTreeMap.mem_toList_iff_getElem?_eq_some.mpr held, rfl⟩

/-- (P.Orders st) says that a store arranges all tables in the order of the pass, if it has one. -/
def Pass.Orders (P : Pass) (st : Store)
    : Prop :=
  ∀ a, P.order = some a → ∀ n, st.arrangements n = a

/-- Stores that differ only by a pass. They arrange the tables to come alike; if the pass has an
order, one of them may have made more tables than the other.
-/
structure Store.Alike (P : Pass) (st st' : Store) : Prop where
  size : st'.contexts.size = st.contexts.size
  context : ∀ c, (st.context c).Alike P (st'.context c)
  values
    : ∀ id : SlotId, Option.Rel (Value.Alike P) st.values[id]? st'.values[id]?
  forcing : st'.forcing = st.forcing
  living : st'.living = st.living
  keeps : st'.kept = st.kept
  holds : ∀ c ∈ P.kept, c ∈ st.kept
  identity : st'.nextIdentity = st.nextIdentity
  host : st'.host = st.host
  blind : st.host.Blind
  output : st'.output = st.output
  stream : st'.arrangements = st.arrangements
  tables : P.order = none → st'.tables = st.tables
  orders : P.Orders st

namespace Store.Alike

variable {P : Pass} {st st' : Store}

/-- A store is like itself if it keeps what the pass does and its host is blind. -/
theorem refl (st : Store) (holds : ∀ c ∈ P.kept, c ∈ st.kept) (blind : st.host.Blind)
    (orders : P.Orders st)
    : st.Alike P st where
  size := rfl
  context c := .refl P.exact _
  values id := by
    cases st.values[id]? with
    | none => exact .none
    | some v => exact .some (.refl P.exact v)
  forcing := rfl
  living := rfl
  keeps := rfl
  holds := holds
  identity := rfl
  host := rfl
  blind := blind
  output := rfl
  stream := rfl
  tables := fun _ => rfl
  orders := orders

variable (alike : st.Alike P st')
include alike

/-- The next table is arranged alike. -/
theorem next_eq
    : st'.arrangements st'.tables = st.arrangements st.tables := by
  cases order : P.order with
  | none => rw [alike.stream, alike.tables order]
  | some a => rw [alike.stream, alike.orders a order, alike.orders a order]

/-- Slots that are alike have values that are, if they have any. -/
theorem value? {slot other : Slot} (slots : slot.Alike P other)
    : Option.Rel (Value.Alike P) (st.value? slot) (st'.value? other) := by
  unfold Store.value?
  rw [slots.id_eq]
  exact alike.values slot.id

/-- Stores stay alike when values that are alike are remembered for slots that are. -/
theorem remember {slot other : Slot} (slots : slot.Alike P other) {v w : Value}
    (same : v.Alike P w)
    : (st.remember slot v).Alike P (st'.remember other w) where
  size := alike.size
  context := alike.context
  values id := by
    unfold Store.remember
    dsimp only
    rw [slots.id_eq, Std.ExtTreeMap.getElem?_insert, Std.ExtTreeMap.getElem?_insert]
    split
    · exact .some same
    · exact alike.values id
  forcing := alike.forcing
  living := alike.living
  keeps := alike.keeps
  holds := alike.holds
  identity := alike.identity
  host := alike.host
  blind := alike.blind
  output := alike.output
  stream := alike.stream
  tables := alike.tables
  orders := alike.orders

/-- They stay alike when the same slot is entered. -/
theorem enter (id : SlotId)
    : (st.enter id).Alike P (st'.enter id) :=
  { alike with forcing := congrArg (id :: ·) alike.forcing }

/-- They stay alike when the same slot is left. -/
theorem leave (id : SlotId)
    : (st.leave id).Alike P (st'.leave id) :=
  { alike with forcing := congrArg (·.erase id) alike.forcing }

/-- They stay alike when contexts that are alike are added, under the same number. -/
theorem add {c d : Context} (contexts : c.Alike P d)
    : (st'.add d).1 = (st.add c).1 ∧ (st.add c).2.Alike P (st'.add d).2 := by
  refine ⟨alike.size, ?_, fun e => ?_, alike.values, alike.forcing, ?_, alike.keeps, alike.holds,
    alike.identity, alike.host, alike.blind, alike.output, alike.stream, alike.tables,
    alike.orders⟩
  · simp [Store.add, alike.size]
  · have old := alike.context e
    unfold Store.context at old ⊢
    simp only [Store.add, Array.getD_eq_getD_getElem?, Array.getElem?_push, alike.size] at old ⊢
    split
    · exact contexts
    · exact old
  · simp only [Store.add, alike.size, alike.living]

/-- They stay alike when nodes that are alike are defined, in the same new context. -/
theorem define {node node' : Node} {b b' : Bindings} (nodes : node.Alike P node')
    (bindings : BindingsAlike P b b') (c : ContextId) (space : String) (s : Symbol)
    : (st'.define c space s node' b').1 = (st.define c space s node b).1
      ∧ (st.define c space s node b).2.Alike P (st'.define c space s node' b').2 := by
  unfold Store.define
  rw [alike.size]
  exact alike.add ((alike.context c).define nodes bindings _ space s)

/-- Slots that are alike refer to the same contexts, up to those that are kept anyway. -/
theorem referencesOf_same {slot other : Slot} (slots : slot.Alike P other)
    : SameBut P.kept (st.referencesOf slot) (st'.referencesOf other) := by
  have values := alike.value? slots
  have nodes := slots.node.contexts_same P.holds
  have bindings := slots.bindings.contexts_same P.holds
  unfold Store.referencesOf
  dsimp only
  refine SameBut.append (SameBut.append ?_ bindings) nodes
  generalize st.value? slot = o, st'.value? other = o' at values ⊢
  cases values with
  | none => exact .refl _
  | some same => exact same.contexts_same P.holds

/-- So do contexts that are alike, by their slots. -/
theorem references_same (c : ContextId)
    : SameBut P.kept (st.references c) (st'.references c) := by
  intro d free
  unfold Store.references
  simp only [List.mem_flatMap, mem_values]
  have slots := (alike.context c).slots
  constructor
  · rintro ⟨slot, ⟨s, stored⟩, member⟩
    have both := slots s
    rw [stored] at both
    generalize other_eq : (st'.context c).slots[s]? = o' at both
    cases both with
    | some same =>
        exact ⟨_, ⟨s, other_eq⟩, (alike.referencesOf_same same d free).mp member⟩
  · rintro ⟨other, ⟨s, stored⟩, member⟩
    have both := slots s
    rw [stored] at both
    generalize slot_eq : (st.context c).slots[s]? = o at both
    cases both with
    | some same =>
        exact ⟨_, ⟨s, slot_eq⟩, (alike.referencesOf_same same d free).mpr member⟩

/-- The same contexts are held, if computations hold the same ones but for those that are kept. -/
theorem isHeld_same {held held' : ContextId → Bool} (same : ∀ c ∉ P.kept, held c = held' c)
    : st'.isHeld held' = st.isHeld held := by
  funext c
  unfold Store.isHeld
  rw [alike.keeps]
  by_cases known : c ∈ P.kept
  · rw [List.contains_iff_mem.mpr (alike.holds c known), Bool.or_true, Bool.or_true]
  · rw [same c known]

/-- The same contexts live on. -/
theorem collected {held held' : ContextId → Bool} (same : ∀ c ∉ P.kept, held c = held' c)
    : (st.collected held).Alike P (st'.collected held') := by
  refine ⟨alike.size, alike.context, alike.values, alike.forcing, ?_, alike.keeps, alike.holds,
    alike.identity, alike.host, alike.blind, alike.output, alike.stream, alike.tables,
    alike.orders⟩
  have holds : ∀ c ∈ P.kept, st.isHeld held c = true := fun c known => by
    rw [Store.isHeld, List.contains_iff_mem.mpr (alike.holds c known), Bool.or_true]
  have start : List.Forall₂ (RefersAlike P.kept)
      (st.living.map fun c => (c, st.references c))
      (st.living.map fun c => (c, st'.references c)) := by
    rw [List.forall₂_map_left_iff, List.forall₂_map_right_iff]
    exact List.forall₂_same.mpr fun c _ => ⟨rfl, alike.references_same c⟩
  have left := names_eq (survivors_same holds st.living.length start)
  unfold Store.collected
  dsimp only
  rw [alike.living, alike.isHeld_same same, List.length_map, List.length_map, left]

end Store.Alike

end IncrementalLisp
