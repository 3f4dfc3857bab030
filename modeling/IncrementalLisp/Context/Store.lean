import IncrementalLisp.Context.Basic
import IncrementalLisp.Host.Basic
import IncrementalLisp.Value.Collection
import IncrementalLisp.Value.Contexts

/-! The state of a run: all contexts that ever came into being, the values of the slots computed
so far, the slots that are being computed, the host, the text written, and the arrangements of the
tables made so far and to come. Contexts are only ever added, and a slot that has a value keeps it;
a context that shares a slot with another shares its value.

A context lives as long as something refers to it: the surroundings of the run, a computation
that goes on in it, a value that is at hand, or a function in a slot of a living context, be it a
slot of its own.
-/

namespace IncrementalLisp

/-- The state of a run. The kept contexts are those that its surroundings refer to. The slots that
are being computed come with the latest first.
-/
structure Store where
  contexts : Array Context
  living : List ContextId
  kept : List ContextId
  values : Std.ExtTreeMap SlotId Value
  forcing : List SlotId
  nextIdentity : Identity
  host : Host
  output : String
  arrangements : Nat → Arrangement
  tables : Nat

namespace Store

/-- A store with one context, which has no definitions. The tables to come are arranged as given. -/
def start (host : Host) (arrangements : Nat → Arrangement := fun _ => .last)
    : Store :=
  ⟨#[Context.empty], [0], [0], ∅, [], 0, host, "", arrangements, 0⟩

/-- The context of a store that is there from the start. -/
def first : ContextId := 0

/-- The store with other kept contexts. -/
def keeping (st : Store) (kept : List ContextId)
    : Store :=
  { st with kept := kept }

/-- The arrangement of the next table, and the store after it. -/
def arrange (st : Store)
    : Arrangement × Store :=
  (st.arrangements st.tables, { st with tables := st.tables + 1 })

/-- The context of a number. -/
def context (st : Store) (c : ContextId)
    : Context :=
  st.contexts.getD c Context.empty

/-- The value of a slot, if it has been computed. -/
def value? (st : Store) (slot : Slot)
    : Option Value :=
  st.values[slot.id]?

/-- The store with the value of a slot. -/
def remember (st : Store) (slot : Slot) (v : Value)
    : Store :=
  { st with values := st.values.insert slot.id v }

/-- The store in which one more slot is being computed. -/
def enter (st : Store) (id : SlotId)
    : Store :=
  { st with forcing := id :: st.forcing }

/-- The store in which the latest computation of a slot is over. -/
def leave (st : Store) (id : SlotId)
    : Store :=
  { st with forcing := st.forcing.erase id }

/-- The store with one more context, and the number of that context. -/
def add (st : Store) (c : Context)
    : ContextId × Store :=
  let added := st.contexts.size
  (added, { st with contexts := st.contexts.push c, living := added :: st.living })

/-- The store after a definition on a context whose current namespace is given. -/
def define (st : Store) (c : ContextId) (space : String) (s : Symbol) (node : Node)
    (bindings : Bindings)
    : ContextId × Store :=
  st.add ((st.context c).define st.contexts.size space s node bindings)

/-- The contexts that a slot refers to, by its value, its bindings and its node. -/
def referencesOf (st : Store) (slot : Slot)
    : List ContextId :=
  let ofValue := match st.value? slot with
    | some v => v.contexts
    | none => []
  ofValue ++ contextsOfBindings slot.bindings ++ slot.node.contexts

/-- The contexts that a context refers to. -/
def references (st : Store) (c : ContextId)
    : List ContextId :=
  (st.context c).slots.values.flatMap st.referencesOf

/-- Whether a context is held, by the computations that go on or by the surroundings of the run. -/
def isHeld (st : Store) (held : ContextId → Bool) (c : ContextId)
    : Bool :=
  held c || st.kept.contains c

/-- Of some contexts with their references, those that are held or that one of them refers to,
after that many rounds of leaving out the others.
-/
def survivors (held : ContextId → Bool)
    : Nat → List (ContextId × List ContextId) → List (ContextId × List ContextId)
  | 0, contexts => contexts
  | rounds + 1, contexts =>
      let referred := contexts.flatMap (·.2)
      let left := contexts.filter fun (c, _) => held c || referred.contains c
      if left.length == contexts.length then contexts else survivors held rounds left

/-- The store in which only those contexts live that something refers to, the held ones included.
Every round but the last leaves one out, so there are no more rounds than contexts.
-/
def collected (st : Store) (held : ContextId → Bool)
    : Store :=
  let contexts := st.living.map fun c => (c, st.references c)
  { st with living := (survivors (st.isHeld held) contexts.length contexts).map (·.1) }

end Store

end IncrementalLisp
