import IncrementalLisp.Context.Store
import IncrementalLisp.Proofs.Context.Definition
import IncrementalLisp.Proofs.Store.Survivors
import IncrementalLisp.Proofs.View.Host
import IncrementalLisp.Proofs.View.Node

/-! Views of stores: of the programs in slots, of their bindings and of the values computed so far
a view sees what it sees of them anywhere else, and it sees everything else. What is done to a
store is done to what is seen of it. The same contexts live on, as long as those that a view
absorbs are kept.
-/

namespace IncrementalLisp

section Seen

variable (V : View)

/-- What a view sees of a slot. -/
def Slot.seen (s : Slot)
    : Slot :=
  { s with node := s.node.seen V, bindings := Bindings.seen V s.node.reads s.bindings }

/-- What a view sees of a context. -/
def Context.seen (c : Context)
    : Context :=
  { c with slots := c.slots.map fun _ slot => slot.seen V }

/-- What a view sees of a store. -/
def Store.seen (st : Store)
    : Store :=
  { st with
    contexts := st.contexts.map (Context.seen V)
    values := st.values.map fun _ v => v.seen V }

end Seen

variable {V : View}

/-- A map goes through an insertion into a table, key by key. -/
theorem insert_map {κ α : Type} {cmp : κ → κ → Ordering} [Std.TransCmp cmp] [Std.LawfulEqCmp cmp]
    (f : α → α) (table : Std.ExtTreeMap κ α cmp) (key : κ) (a : α)
    : (table.map fun _ a => f a).insert key (f a) = (table.insert key a).map fun _ a => f a := by
  refine Std.ExtTreeMap.ext_getElem? fun k => ?_
  rw [Std.ExtTreeMap.getElem?_insert, Std.ExtTreeMap.getElem?_map, Std.ExtTreeMap.getElem?_map,
    Std.ExtTreeMap.getElem?_insert]
  split <;> rfl

-----------------------------------------------------------------------------------------
-- Contexts
-----------------------------------------------------------------------------------------

namespace Context

variable (c : Context)

/-- The slot of a symbol is seen. -/
@[simp] theorem getElem?_slots_seen (s : Symbol)
    : (c.seen V).slots[s]? = (c.slots[s]?).map (Slot.seen V) :=
  Std.ExtTreeMap.getElem?_map

/-- A context is seen with its symbols. -/
@[simp] theorem symbols_seen
    : (c.seen V).symbols = c.symbols :=
  Std.ExtTreeMap.keys_map

/-- Its slots are seen one by one. -/
theorem values_slots_seen
    : (c.seen V).slots.values = c.slots.values.map (Slot.seen V) := by
  rw [SymbolMap.values_eq_map_toList, SymbolMap.values_eq_map_toList]
  unfold seen
  rw [Std.ExtTreeMap.toList_map, List.map_map, List.map_map]
  rfl

/-- The slot that is found for a symbol is seen, in its namespace or in the core. -/
theorem slotIn?_seen (space : String) (s : Symbol)
    : (c.seen V).slotIn? space s = (c.slotIn? space s).map (Slot.seen V) := by
  unfold slotIn?
  rw [getElem?_slots_seen, getElem?_slots_seen, Option.map_or]

/-- The index is seen to change as it does. -/
theorem reindexed_seen (s : Symbol) (dependencies : SymbolSet)
    : (c.seen V).reindexed s dependencies = c.reindexed s dependencies := by
  unfold reindexed
  rw [getElem?_slots_seen]
  cases c.slots[s]? <;> rfl

/-- A renewed slot is seen renewed. -/
theorem renew_seen (owner : ContextId) (slots : SymbolMap Slot) (s : Symbol)
    : renew owner (slots.map fun _ slot => slot.seen V) s
      = (renew owner slots s).map fun _ slot => slot.seen V := by
  unfold renew
  rw [Std.ExtTreeMap.getElem?_map]
  cases slots[s]? with
  | none => rfl
  | some slot => exact insert_map (Slot.seen V) slots s (slot.ownedBy owner)

/-- So are several. Witness: the fold over the symbols. -/
theorem renewed_seen (owner : ContextId) (symbols : SymbolSet)
    : (c.seen V).renewed owner symbols
      = (c.renewed owner symbols).map fun _ slot => slot.seen V := by
  unfold renewed seen
  rw [Std.ExtTreeSet.foldl_eq_foldl_toList, Std.ExtTreeSet.foldl_eq_foldl_toList]
  generalize c.slots = slots
  induction symbols.toList generalizing slots with
  | nil => rfl
  | cons s rest ih => rw [List.foldl_cons, List.foldl_cons, renew_seen, ih]

/-- A symbol's dependents are seen as they are. Witness: induction on the rounds. -/
theorem closure_seen (rounds : Nat) (found : SymbolSet)
    : (c.seen V).closure rounds found = c.closure rounds found := by
  induction rounds generalizing found with
  | zero => rfl
  | succ rounds ih =>
      have wider : (c.seen V).withDependents found = c.withDependents found := rfl
      unfold closure
      dsimp only
      rw [wider, ih]

/-- A context is seen with a definition as that is seen. -/
theorem define_seen (owner : ContextId) (space : String) (s : Symbol) (node : Node)
    (b : Bindings)
    : (c.seen V).define owner space s (node.seen V) (Bindings.seen V node.reads b)
      = (c.define owner space s node b).seen V := by
  have found (t : Symbol) : (c.seen V).transitiveDependents t = c.transitiveDependents t :=
    c.closure_seen _ _
  unfold define
  dsimp only
  rw [Node.dependencies_seen, found, renewed_seen, reindexed_seen]
  let slot : Slot :=
    ⟨owner, s.qualify space, node, b, SymbolSet.spellings node.dependencies space, space⟩
  exact congrArg (Context.mk · _) (insert_map (Slot.seen V) _ _ slot)

end Context

-----------------------------------------------------------------------------------------
-- Stores
-----------------------------------------------------------------------------------------

namespace Store

variable (st : Store)

/-- A store is seen with its contexts as they are seen. -/
@[simp] theorem context_seen (c : ContextId)
    : (st.seen V).context c = (st.context c).seen V := by
  have none : Context.empty.seen V = Context.empty := by
    unfold Context.seen Context.empty
    congr 1
  have stored : (st.seen V).contexts[c]? = (st.contexts[c]?).map (Context.seen V) :=
    Array.getElem?_map
  unfold context
  rw [Array.getD_eq_getD_getElem?, Array.getD_eq_getD_getElem?, stored]
  cases st.contexts[c]? with
  | none => exact none.symm
  | some found => rfl

/-- A slot is seen with its value, if it has one. -/
theorem value?_seen (slot : Slot)
    : (st.seen V).value? (slot.seen V) = (st.value? slot).map (Value.seen V) :=
  Std.ExtTreeMap.getElem?_map

/-- A store is seen to remember a value as that is seen. -/
theorem remember_seen (slot : Slot) (v : Value)
    : (st.seen V).remember (slot.seen V) (v.seen V) = (st.remember slot v).seen V := by
  have values := insert_map (Value.seen V) st.values slot.id v
  unfold remember seen
  exact congrArg (fun values => { st.seen V with values := values }) values

/-- A store is seen with a definition, in the same new context. -/
theorem define_seen (c : ContextId) (space : String) (s : Symbol) (node : Node)
    (b : Bindings)
    : (st.seen V).define c space s (node.seen V) (Bindings.seen V node.reads b)
      = ((st.define c space s node b).1, (st.define c space s node b).2.seen V) := by
  have size : (st.seen V).contexts.size = st.contexts.size := Array.size_map
  unfold define add
  dsimp only
  rw [context_seen, Context.define_seen, size]
  unfold seen
  simp only [Array.map_push]

-----------------------------------------------------------------------------------------
-- Liveness
-----------------------------------------------------------------------------------------

/-- A slot is seen to refer to what it does, but for the contexts that the view absorbs. -/
theorem referencesOf_seen (slot : Slot)
    : SameBut V.absorbed (st.referencesOf slot) ((st.seen V).referencesOf (slot.seen V)) := by
  have bindings := contextsOfBindings_seen (V := V) slot.node.reads slot.bindings
  have node := slot.node.contexts_seen (V := V)
  rw [seenCaptured_eq_seen] at bindings
  unfold referencesOf
  dsimp only
  rw [value?_seen]
  refine SameBut.append (SameBut.append ?_ bindings.symm) node.symm
  cases st.value? slot with
  | none => exact .refl _
  | some v => exact v.contexts_seen.symm

/-- So is a context, by its slots. -/
theorem references_seen (c : ContextId)
    : SameBut V.absorbed (st.references c) ((st.seen V).references c) := by
  unfold references
  rw [context_seen, Context.values_slots_seen]
  induction (st.context c).slots.values with
  | nil => exact .refl _
  | cons slot rest ih => exact (st.referencesOf_seen slot).append ih

/-- The same contexts live on if the absorbed ones are held. -/
theorem collected_seen {held : ContextId → Bool} (holds : ∀ c ∈ V.absorbed, st.isHeld held c = true)
    : (st.seen V).collected held = (st.collected held).seen V := by
  have start : List.Forall₂ (RefersAlike V.absorbed)
      (st.living.map fun c => (c, st.references c))
      (st.living.map fun c => (c, (st.seen V).references c)) := by
    rw [List.forall₂_map_left_iff, List.forall₂_map_right_iff]
    exact List.forall₂_same.mpr fun c _ => ⟨rfl, st.references_seen c⟩
  have left := names_eq (survivors_same holds st.living.length start)
  have living : (st.seen V).living = st.living := rfl
  have keeps : (st.seen V).isHeld held = st.isHeld held := rfl
  unfold collected
  dsimp only
  rw [living, keeps, List.length_map, List.length_map, left]
  rfl

/-- Only which contexts are held matters to which live on. -/
theorem collected_congr {held held' : ContextId → Bool} (same : st.isHeld held' = st.isHeld held)
    : st.collected held' = st.collected held := by
  unfold collected
  rw [same]

end Store

-----------------------------------------------------------------------------------------
-- Slots and stores that look alike
-----------------------------------------------------------------------------------------

section Same

variable {slot slot' : Slot} (slots : slot.seen V = slot'.seen V)
include slots

/-- Slots that are seen alike have the same number. -/
theorem Slot.id_same : slot.id = slot'.id :=
  (congrArg Slot.id slots :)

/-- They have the same namespace. -/
theorem Slot.space_same : slot.space = slot'.space :=
  (congrArg Slot.space slots :)

/-- Their nodes are seen alike. -/
theorem Slot.node_same : slot.node.seen V = slot'.node.seen V :=
  (congrArg Slot.node slots :)

/-- Their bindings are seen alike by what the nodes read. -/
theorem Slot.bindings_same
    : Bindings.seen V slot.node.reads slot.bindings
      = Bindings.seen V slot.node.reads slot'.bindings := by
  have bindings : Bindings.seen V slot.node.reads slot.bindings
      = Bindings.seen V slot'.node.reads slot'.bindings := (congrArg Slot.bindings slots :)
  rw [bindings, ← slot'.node.reads_seen (V := V), ← node_same slots, slot.node.reads_seen]

omit slots

variable {c d : Context} (contexts : c.seen V = d.seen V)
include contexts

/-- Contexts that are seen alike have slots that are. -/
theorem Context.slots_same (s : Symbol)
    : Option.Rel (fun slot slot' => slot.seen V = slot'.seen V) c.slots[s]? d.slots[s]? := by
  refine rel_of_map_eq ?_
  rw [← getElem?_slots_seen, contexts, getElem?_slots_seen]

omit contexts

variable {st st' : Store} (stores : st.seen V = st'.seen V)
include stores

/-- Stores that are seen alike have the same host. -/
theorem Store.host_same : st.host = st'.host :=
  (congrArg Store.host stores :)

/-- The same slots are being computed in them. -/
theorem Store.forcing_same : st.forcing = st'.forcing :=
  (congrArg Store.forcing stores :)

/-- They are seen alike after the same slot is entered. -/
theorem Store.enter_same (id : SlotId) : (st.enter id).seen V = (st'.enter id).seen V :=
  (congrArg (·.enter id) stores :)

/-- They are seen alike after the same slot is left. -/
theorem Store.leave_same (id : SlotId) : (st.leave id).seen V = (st'.leave id).seen V :=
  (congrArg (·.leave id) stores :)

/-- They keep the same contexts. -/
theorem Store.kept_same : st.kept = st'.kept :=
  (congrArg Store.kept stores :)

/-- They have the same living contexts. -/
theorem Store.living_same : st.living = st'.living :=
  (congrArg Store.living stores :)

/-- They have the same next number. -/
theorem Store.nextIdentity_same : st.nextIdentity = st'.nextIdentity :=
  (congrArg Store.nextIdentity stores :)

/-- They draw the same arrangement. -/
theorem Store.arrangement_same : st.arrange.1 = st'.arrange.1 :=
  (congrArg (fun st : Store => st.arrangements st.tables) stores :)

end Same

end IncrementalLisp
