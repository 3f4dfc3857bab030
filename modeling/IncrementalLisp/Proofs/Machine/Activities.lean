import IncrementalLisp.Machine.Tower
import IncrementalLisp.Proofs.Machine.Course

/-! Everything a machine does keeps a course that its four activities keep. Each function of the
evaluator, of the calls and of the expanders is followed once; the slots it computes are always
slots of some context of the store.
-/

namespace IncrementalLisp

/-- (st.Finds c slot) says that the context has the slot. -/
def Store.Finds (st : Store) (c : ContextId) (slot : Slot)
    : Prop :=
  ∃ k : Symbol, (st.context c).slots[k]? = some slot

/-- A machine whose activities keep a course, computing slots only for contexts that have them. -/
class Machine.Follows (P : Store → Store → Prop) (m : Machine) : Prop where
  eval : ∀ node c b, Run.Follows P (m.eval node c b)
  call : ∀ callee args c, Run.Follows P (m.call callee args c)
  force
    : ∀ {slot c scope st}, Store.Finds st c slot → P st ((m.force slot c).outcome scope st).2
  expand : ∀ e c form k, Run.Follows P (m.expand e c form k)

namespace Machine

open Run

variable {P : Store → Store → Prop} [Course P] {m : Machine} [m.Follows P]

instance (node : Node) (c : ContextId) (b : Bindings)
    : Run.Follows P (m.eval node c b) :=
  Follows.eval node c b

instance (callee : Value) (args : List Value) (c : ContextId)
    : Run.Follows P (m.call callee args c) :=
  Follows.call callee args c

instance (e : Expander) (c : ContextId) (form : Value) (k : Expander)
    : Run.Follows P (m.expand e c form k) :=
  Follows.expand e c form k

instance follows_compute (node : Node) (c : ContextId) (b : Bindings)
    : Run.Follows P (m.compute node c b) := by
  unfold compute
  infer_instance

instance follows_computeAll (nodes : List Node) (c : ContextId) (b : Bindings)
    : Run.Follows P (m.computeAll nodes c b) := by
  unfold computeAll
  infer_instance

-----------------------------------------------------------------------------------------
-- Names
-----------------------------------------------------------------------------------------

/-- The namespace of a context is that of a slot of the store, computed at once. -/
instance follows_currentSpace (c : ContextId)
    : Run.Follows P (m.currentSpace c) where
  follows := by
    intro scope st
    unfold currentSpace
    apply follows_bind
    · exact Course.refl
    rintro found middle read
    obtain ⟨rfl, rfl⟩ : st.context c = found ∧ st = middle := by simpa using read
    split
    · exact Course.refl
    · rename_i slot stored
      apply follows_bind
      · have forced : P st ((m.force slot c).outcome scope st).2 :=
          Machine.Follows.force ⟨_, stored⟩
        rw [outcome_attempt]
        rcases step : (m.force slot c).outcome scope st with ⟨result, after⟩
        rw [step] at forced
        cases result with
        | ok v => exact forced
        | error h =>
            cases h with
            | error e => exact forced
            | outOfFuel => exact forced
      · intro result after _
        split <;> exact Course.refl

instance follows_qualify (c : ContextId) (s : Symbol)
    : Run.Follows P (m.qualify c s) := by
  unfold qualify
  infer_instance

instance follows_slot? (c : ContextId) (s : Symbol)
    : Run.Follows P (m.slot? c s) := by
  unfold slot?
  infer_instance

/-- The slot that a symbol means is one of the context it was looked up in. -/
theorem finds_of_slot? {c : ContextId} {s : Symbol} {scope : Scope} {st after : Store}
    {slot : Slot} (found : (m.slot? c s).outcome scope st = (.ok (some slot), after))
    : after.Finds c slot := by
  unfold slot? at found
  split at found
  · rw [outcome_bind_eq_ok] at found
    obtain ⟨context, middle, read, result⟩ := found
    obtain ⟨rfl, rfl⟩ : st.context c = context ∧ st = middle := by simpa using read
    obtain ⟨stored, rfl⟩ : (st.context c).slots[s]? = some slot ∧ st = after := by
      simpa using result
    exact ⟨s, stored⟩
  · simp only [outcome_bind_eq_ok] at found
    obtain ⟨space, middle, _, context, later, read, result⟩ := found
    obtain ⟨rfl, rfl⟩ : middle.context c = context ∧ middle = later := by simpa using read
    obtain ⟨stored, rfl⟩ : (middle.context c).slotIn? space s = some slot ∧ middle = after := by
      simpa only [outcome_pure, Prod.mk.injEq, Except.ok.injEq] using result
    unfold Context.slotIn? at stored
    rcases Option.or_eq_some_iff.mp stored with near | ⟨_, core⟩
    · exact ⟨_, near⟩
    · exact ⟨_, core⟩

/-- A computation that begins with the search for a slot and computes what it finds. -/
theorem follows_slot?_bind {α : Type} {c : ContextId} {s : Symbol}
    {rest : Option Slot → Run α} [Run.Follows P (rest none)]
    (found : ∀ slot scope st, st.Finds c slot → P st ((rest (some slot)).outcome scope st).2)
    : Run.Follows P (m.slot? c s >>= rest) where
  follows := by
    intro scope st
    apply follows_bind
    · exact Run.Follows.follows scope st
    · intro result middle search
      cases result with
      | none => exact Run.Follows.follows scope middle
      | some slot => exact found slot scope middle (finds_of_slot? search)

instance follows_valueOf (c : ContextId) (s : Symbol)
    : Run.Follows P (m.valueOf c s) := by
  unfold valueOf
  apply follows_slot?_bind
  intro slot scope st held
  exact Machine.Follows.force held

instance follows_define (c : ContextId) (s : Symbol) (node : Node) (b : Bindings)
    : Run.Follows P (m.define c s node b) := by
  have added (space : String)
      : Run.Follows P (modifyGet (·.define c space s node b) : Run ContextId) :=
    ⟨fun _ _ => Course.define⟩
  unfold define
  infer_instance

-----------------------------------------------------------------------------------------
-- Evaluation
-----------------------------------------------------------------------------------------

instance follows_evalSequence (body : List Node) (last : Value) (c : ContextId) (b : Bindings)
    : Run.Follows P (m.evalSequence body last c b) := by
  induction body generalizing last c with
  | nil =>
      unfold evalSequence
      infer_instance
  | cons node rest ih =>
      unfold evalSequence
      infer_instance

instance follows_evalPairs (outer : Bindings) (pairs : List (Symbol × Node)) (b : Bindings)
    (c : ContextId)
    : Run.Follows P (m.evalPairs outer pairs b c) := by
  induction pairs generalizing b c with
  | nil =>
      unfold evalPairs
      infer_instance
  | cons pair rest ih =>
      unfold evalPairs
      infer_instance

instance follows_closureOf (params : List Symbol) (rest : Option Symbol) (body : Node)
    (c : ContextId) (b : Bindings)
    : Run.Follows P (closureOf params rest body c b) := by
  unfold closureOf
  infer_instance

instance follows_userExpanderOf (continuation : Symbol) (params : List Symbol) (body : Node)
    (b : Bindings)
    : Run.Follows P (userExpanderOf continuation params body b) := by
  unfold userExpanderOf
  infer_instance

instance follows_evalNode (node : Node) (c : ContextId) (b : Bindings)
    : Run.Follows P (m.evalNode node c b) := by
  unfold evalNode
  split
  case h_2 => split <;> infer_instance
  case h_13 =>
    refine Run.Follows.andThen fun values => Run.Follows.andThen fun a => ?_
    split <;> infer_instance
  case h_18 =>
    apply Run.Follows.andThen
    intro type
    split <;> infer_instance
  all_goals infer_instance

-----------------------------------------------------------------------------------------
-- Calls
-----------------------------------------------------------------------------------------

instance follows_asValue (n : Node)
    : Run.Follows P n.asValue := by
  unfold Node.asValue
  split <;> infer_instance

instance follows_callClosure (f : Closure) (args : List Value)
    : Run.Follows P (m.callClosure f args) := by
  unfold callClosure
  infer_instance

instance follows_callApply (args : List Value) (c : ContextId)
    : Run.Follows P (m.callApply args c) := by
  unfold callApply
  split
  · infer_instance
  · apply Run.Follows.andThen
    intro result
    split <;> infer_instance

/-- What a primitive answers follows any course. -/
theorem follows_answered (p : Primitive) (result : Except Fault Value)
    : Run.Follows P (match result with
        | .ok v => pure v
        | .error fault => Run.fail (.call (.refused p.name fault))) := by
  split <;> infer_instance

instance follows_callPrimitive (p : Primitive) (args : List Value) (c : ContextId)
    : Run.Follows P (m.callPrimitive p args c) := by
  have follows := follows_answered (P := P) p
  unfold callPrimitive
  infer_instance

instance follows_callExpander (e : Expander) (args : List Value) (c : ContextId)
    : Run.Follows P (m.callExpander e args c) := by
  unfold callExpander
  split <;> infer_instance

instance follows_callValue (callee : Value) (args : List Value) (c : ContextId)
    : Run.Follows P (m.callValue callee args c) := by
  unfold callValue
  split <;> infer_instance

end Machine
end IncrementalLisp
