import IncrementalLisp.Node.Basic

/-! Contexts. A context maps qualified symbols to slots. A slot is a definition: a node with the
lexical bindings and the namespace it is to be evaluated in, owned by the context that came
into being with it. The dependents index is the reverse of the dependencies of the slots.
-/

namespace IncrementalLisp

/-- The name of a slot: the context that came into being with it, and its symbol. -/
structure SlotId where
  owner : ContextId
  symbol : Symbol
deriving DecidableEq, Repr

namespace SlotId

instance : Ord SlotId where
  compare := compareLex (compareOn owner) (compareOn symbol)

/-- Slot numbers are ordered by their owner and then by their symbol, by definition. -/
theorem compare_eq
    : (compare : SlotId → SlotId → Ordering)
      = compareLex (compareOn owner) (compareOn symbol) :=
  rfl

instance : Std.TransOrd SlotId := by
  unfold Std.TransOrd
  rw [compare_eq]
  infer_instance

instance : Std.LawfulEqOrd SlotId where
  compare_self := by
    intro s
    rw [compare_eq]
    simp [compareLex, compareOn]
  eq_of_compare := by
    intro s t equal
    rw [compare_eq] at equal
    simp [compareLex, compareOn, Ordering.then_eq_eq] at equal
    cases s
    cases t
    simp_all

end SlotId

/-- A definition that has not been evaluated. -/
structure Slot where
  owner : ContextId
  symbol : Symbol
  node : Node
  bindings : Bindings
  dependencies : SymbolSet
  space : String

/-- The name of a slot. -/
def Slot.id (s : Slot)
    : SlotId :=
  ⟨s.owner, s.symbol⟩

/-- The same definition, not yet evaluated, as a slot of another context. -/
def Slot.ownedBy (s : Slot) (owner : ContextId)
    : Slot :=
  { s with owner := owner }

/-- A table of definitions with its dependents index. -/
structure Context where
  slots : SymbolMap Slot
  dependents : SymbolMap SymbolSet

/-- A set of names under every spelling by which a later definition may become the one meant in
the given namespace.
-/
def SymbolSet.spellings (names : SymbolSet) (space : String)
    : SymbolSet :=
  names.foldl
    (fun all s => all.insert s |>.insert (s.qualify space) |>.insert (s.qualify coreSpace)) ∅

namespace Context

/-- A context without definitions. -/
def empty : Context := ⟨∅, ∅⟩

/-- The slots that refer to a symbol in just this spelling. -/
def directDependents (c : Context) (s : Symbol)
    : SymbolSet :=
  (c.dependents[s]?).getD ∅

/-- The symbols that occur in the index as dependents. -/
def allDependents (c : Context)
    : SymbolSet :=
  c.dependents.foldl (fun all _ found => all ∪ found) ∅

/-- A set of symbols with the direct dependents of each. -/
def withDependents (c : Context) (found : SymbolSet)
    : SymbolSet :=
  found.foldl (fun wider s => wider ∪ c.directDependents s) found

/-- A set of symbols with what depends on them through at most the given number of slots. -/
def closure (c : Context)
    : Nat → SymbolSet → SymbolSet
  | 0, found => found
  | rounds + 1, found =>
      let wider := c.withDependents found
      if wider.size == found.size then found else c.closure rounds wider

/-- The slots that refer to a qualified symbol, directly or through other slots. Every round but
the last finds a new one, so there are no more rounds than dependents.
-/
def transitiveDependents (c : Context) (s : Symbol)
    : SymbolSet :=
  c.closure c.allDependents.size (c.directDependents s)

/-- The index with a dependency of a symbol taken out. An entry without dependents goes. -/
def unlink (s : Symbol) (index : SymbolMap SymbolSet) (dependency : Symbol)
    : SymbolMap SymbolSet :=
  let remaining := ((index[dependency]?).getD ∅).erase s
  if remaining.isEmpty then index.erase dependency else index.insert dependency remaining

/-- The index with a dependency of a symbol put in. -/
def link (s : Symbol) (index : SymbolMap SymbolSet) (dependency : Symbol)
    : SymbolMap SymbolSet :=
  index.insert dependency (((index[dependency]?).getD ∅).insert s)

/-- The dependents index after a symbol is defined anew with the given dependencies. -/
def reindexed (c : Context) (s : Symbol) (dependencies : SymbolSet)
    : SymbolMap SymbolSet :=
  let old := match c.slots[s]? with
    | some slot => slot.dependencies
    | none => ∅
  dependencies.foldl (link s) (old.foldl (unlink s) c.dependents)

/-- The slots with that of a symbol owned by another context, if the symbol has one. -/
def renew (owner : ContextId) (slots : SymbolMap Slot) (s : Symbol)
    : SymbolMap Slot :=
  match slots[s]? with
  | some slot => slots.insert s (slot.ownedBy owner)
  | none => slots

/-- The slots with those of some symbols owned by another context. -/
def renewed (c : Context) (owner : ContextId) (symbols : SymbolSet)
    : SymbolMap Slot :=
  symbols.foldl (renew owner) c.slots

/-- The context that comes into being when a symbol is defined in a namespace. The definitions
that depend on the symbol are renewed together with it; all others are the same slots as
before.
-/
def define (c : Context) (owner : ContextId) (space : String) (s : Symbol) (node : Node)
    (bindings : Bindings)
    : Context :=
  let s := s.qualify space
  let dependencies := SymbolSet.spellings node.dependencies space
  let slot : Slot := ⟨owner, s, node, bindings, dependencies, space⟩
  ⟨(c.renewed owner (c.transitiveDependents s)).insert s slot, c.reindexed s dependencies⟩

/-- The slot that a symbol means in a namespace: of a bare symbol the definition in the namespace
itself, else the one in the core.
-/
def slotIn? (c : Context) (space : String) (s : Symbol)
    : Option Slot :=
  (c.slots[s.qualify space]?).or (c.slots[s.qualify coreSpace]?)

/-- The symbols that are defined, in order. -/
def symbols (c : Context)
    : List Symbol :=
  c.slots.keys

end Context

end IncrementalLisp
