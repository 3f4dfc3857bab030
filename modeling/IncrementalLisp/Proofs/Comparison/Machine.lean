import IncrementalLisp.Proofs.Comparison.Run
import IncrementalLisp.Proofs.Machine.Tower

/-! Everything that machines do with their activities compares as the activities do. Each function
of the evaluator, of the calls and of the expanders is compared once; the slots it computes are
always slots of some context of the store.
-/

namespace IncrementalLisp

/-- Machines whose activities compare, the computations of some slots among them. -/
class Machine.Compared (C : Comparison) (m m' : Machine) : Prop where
  eval : ∀ node c b, Run.Compared C (m.eval node c b) (m'.eval node c b)
  call : ∀ callee args c, Run.Compared C (m.call callee args c) (m'.call callee args c)
  force
    : ∀ {slot c scope st}, C.slots st c slot
        → C.holds (m.force slot c) (m'.force slot c) scope st
  expand : ∀ e c form k, Run.Compared C (m.expand e c form k) (m'.expand e c form k)

namespace Machine

open Run

variable {C : Comparison} {m m' : Machine} [Machine.Compared C m m']

instance (node : Node) (c : ContextId) (b : Bindings)
    : Run.Compared C (m.eval node c b) (m'.eval node c b) :=
  Compared.eval node c b

instance (callee : Value) (args : List Value) (c : ContextId)
    : Run.Compared C (m.call callee args c) (m'.call callee args c) :=
  Compared.call callee args c

instance (e : Expander) (c : ContextId) (form : Value) (k : Expander)
    : Run.Compared C (m.expand e c form k) (m'.expand e c form k) :=
  Compared.expand e c form k

instance compared_compute (node : Node) (c : ContextId) (b : Bindings)
    : Run.Compared C (m.compute node c b) (m'.compute node c b) := by
  unfold compute
  infer_instance

instance compared_computeAll (nodes : List Node) (c : ContextId) (b : Bindings)
    : Run.Compared C (m.computeAll nodes c b) (m'.computeAll nodes c b) := by
  unfold computeAll
  infer_instance

-----------------------------------------------------------------------------------------
-- Names
-----------------------------------------------------------------------------------------

instance compared_currentSpace (c : ContextId)
    : Run.Compared C (m.currentSpace c) (m'.currentSpace c) where
  compared := by
    intro scope st
    unfold currentSpace
    refine C.bind (Run.Compared.compared scope st) ?_
    rintro found middle read
    obtain ⟨rfl, rfl⟩ : st.context c = found ∧ st = middle := by simpa using read
    split
    · exact Run.Compared.compared scope st
    · rename_i slot stored
      refine C.bind (C.attempt (Compared.force (C.found ⟨_, stored⟩))) ?_
      intro result after _
      split <;> exact Run.Compared.compared scope after

instance compared_qualify (c : ContextId) (s : Symbol)
    : Run.Compared C (m.qualify c s) (m'.qualify c s) := by
  unfold qualify
  infer_instance

instance compared_slot? (c : ContextId) (s : Symbol)
    : Run.Compared C (m.slot? c s) (m'.slot? c s) := by
  unfold slot?
  infer_instance

/-- Computations that begin with the search for a slot and compute what they find. -/
theorem compared_slot?_bind {α : Type} {c : ContextId} {s : Symbol}
    {rest rest' : Option Slot → Run α}
    [Run.Compared C (rest none) (rest' none)]
    (found
      : ∀ slot scope st, C.slots st c slot → C.holds (rest (some slot))
        (rest' (some slot)) scope st)
    : Run.Compared C (m.slot? c s >>= rest) (m'.slot? c s >>= rest') where
  compared := by
    intro scope st
    refine C.bind (Run.Compared.compared scope st) fun result middle search => ?_
    cases result with
    | none => exact Run.Compared.compared scope middle
    | some slot => exact found slot scope middle (C.found (finds_of_slot? search))

instance compared_valueOf (c : ContextId) (s : Symbol)
    : Run.Compared C (m.valueOf c s) (m'.valueOf c s) := by
  unfold valueOf
  exact compared_slot?_bind fun slot scope st found => Compared.force found

instance compared_define (c : ContextId) (s : Symbol) (node : Node) (b : Bindings)
    : Run.Compared C (m.define c s node b) (m'.define c s node b) := by
  have added (space : String)
      : Run.Follows Store.Plainly (modifyGet (·.define c space s node b) : Run ContextId) :=
    ⟨fun _ _ => Course.define⟩
  unfold define
  infer_instance

-----------------------------------------------------------------------------------------
-- Evaluation
-----------------------------------------------------------------------------------------

instance compared_evalSequence (body : List Node) (last : Value) (c : ContextId) (b : Bindings)
    : Run.Compared C (m.evalSequence body last c b) (m'.evalSequence body last c b) := by
  induction body generalizing last c with
  | nil =>
      unfold evalSequence
      infer_instance
  | cons node rest ih =>
      unfold evalSequence
      infer_instance

instance compared_evalPairs (outer : Bindings) (pairs : List (Symbol × Node)) (b : Bindings)
    (c : ContextId)
    : Run.Compared C (m.evalPairs outer pairs b c) (m'.evalPairs outer pairs b c) := by
  induction pairs generalizing b c with
  | nil =>
      unfold evalPairs
      infer_instance
  | cons pair rest ih =>
      unfold evalPairs
      infer_instance

instance compared_evalNode (node : Node) (c : ContextId) (b : Bindings)
    : Run.Compared C (m.evalNode node c b) (m'.evalNode node c b) := by
  unfold evalNode
  split
  case h_2 => split <;> infer_instance
  case h_13 =>
    refine Run.Compared.andThen fun values => Run.Compared.andThen fun a => ?_
    split <;> infer_instance
  case h_18 =>
    apply Run.Compared.andThen
    intro type
    split <;> infer_instance
  all_goals infer_instance

-----------------------------------------------------------------------------------------
-- Calls and slots
-----------------------------------------------------------------------------------------

instance compared_callClosure (f : Closure) (args : List Value)
    : Run.Compared C (m.callClosure f args) (m'.callClosure f args) := by
  unfold callClosure
  infer_instance

instance compared_callApply (args : List Value) (c : ContextId)
    : Run.Compared C (m.callApply args c) (m'.callApply args c) := by
  unfold callApply
  split
  · infer_instance
  · apply Run.Compared.andThen
    intro result
    split <;> infer_instance

instance compared_callPrimitive (p : Primitive) (args : List Value) (c : ContextId)
    : Run.Compared C (m.callPrimitive p args c) (m'.callPrimitive p args c) := by
  have follows := follows_answered (P := Store.Plainly) p
  unfold callPrimitive
  infer_instance

instance compared_callExpander (e : Expander) (args : List Value) (c : ContextId)
    : Run.Compared C (m.callExpander e args c) (m'.callExpander e args c) := by
  unfold callExpander
  split <;> infer_instance

instance compared_callValue (callee : Value) (args : List Value) (c : ContextId)
    : Run.Compared C (m.callValue callee args c) (m'.callValue callee args c) := by
  unfold callValue
  split <;> infer_instance

instance compared_contextOf (slot : Slot) (finder : ContextId)
    : Run.Compared C (m.contextOf slot finder) (m'.contextOf slot finder) := by
  unfold contextOf
  infer_instance

-----------------------------------------------------------------------------------------
-- Parts of forms
-----------------------------------------------------------------------------------------

instance compared_expandAll (c : ContextId) (forms : List Value) (k : Expander)
    : Run.Compared C (m.expandAll c forms k) (m'.expandAll c forms k) := by
  unfold expandAll
  infer_instance

instance compared_expandEntries (c : ContextId) (entries : List (Value × Value)) (k : Expander)
    : Run.Compared C (m.expandEntries c entries k) (m'.expandEntries c entries k) := by
  unfold expandEntries
  infer_instance

instance compared_evaluateNow (c : ContextId) (form : Value) (k : Expander)
    : Run.Compared C (m.evaluateNow c form k) (m'.evaluateNow c form k) := by
  unfold evaluateNow
  infer_instance

instance compared_nameIn (c : ContextId) (form : Value) (k : Expander) (role : NameRole)
    : Run.Compared C (m.nameIn c form k role) (m'.nameIn c form k role) := by
  unfold nameIn
  split
  · infer_instance
  · split
    · apply Run.Compared.andThen
      intro v
      split <;> infer_instance
    · infer_instance
  · infer_instance

instance compared_paramsIn (c : ContextId) (vector : Value) (k : Expander) (forms : List Value)
    : Run.Compared C (m.paramsIn c vector k forms) (m'.paramsIn c vector k forms) := by
  induction forms with
  | nil =>
      unfold paramsIn
      infer_instance
  | cons item rest ih =>
      unfold paramsIn
      split
      · split <;> infer_instance
      · infer_instance

instance compared_paramsOf (c : ContextId) (form : Value) (k : Expander)
    : Run.Compared C (m.paramsOf c form k) (m'.paramsOf c form k) := by
  unfold paramsOf
  split <;> infer_instance

instance compared_typeNamed? (c : ContextId) (form : Value)
    : Run.Compared C (m.typeNamed? c form) (m'.typeNamed? c form) := by
  unfold typeNamed?
  split
  · split
    · apply Run.Compared.andThen
      intro found
      split <;> infer_instance
    · infer_instance
  · infer_instance

end Machine
end IncrementalLisp
