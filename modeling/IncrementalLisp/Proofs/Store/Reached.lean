import IncrementalLisp.Proofs.Context.Definition
import IncrementalLisp.Proofs.Machine.Tower

/-! The stores that can be reached. Every run goes from store to store by steps: it adds the
context of a definition, gives a slot of some context a value, or changes something that no
context sees. Here a slot whose node is no constant may be given any value, so that more stores
are reached than by the machines alone; what holds of them all holds of every store of a run.
-/

namespace IncrementalLisp

namespace Store

/-- One step of a store. -/
inductive Step : Store → Store → Prop where
  | define (st : Store) (c : ContextId) (space : String) (s : Symbol) (node : Node) (b : Bindings)
      : Step st (st.define c space s node b).2
  | remember {st : Store} {c : ContextId} {slot : Slot} {v : Value} (found : st.Finds c slot)
      (fixed : ∀ w, slot.node.constant? = some w → v = w)
      : Step st (st.remember slot v)
  | identity (st : Store)
      : Step st { st with nextIdentity := st.nextIdentity + 1 }
  | arrange (st : Store)
      : Step st st.arrange.2
  | output (st : Store) (text : String)
      : Step st { st with output := text }
  | host {st : Store} {host : Host} (next : st.host.Next host)
      : Step st { st with host := host }
  | collected (st : Store) (held : ContextId → Bool)
      : Step st (st.collected held)
  | enter (st : Store) (id : SlotId)
      : Step st (st.enter id)
  | leave (st : Store) (id : SlotId)
      : Step st (st.leave id)
  | keeping (st : Store) (kept : List ContextId)
      : Step st (st.keeping kept)

/-- (st.Leads after) says that steps go from one store to the other. -/
def Leads
    : Store → Store → Prop :=
  Relation.ReflTransGen Step

/-- (st.Reached) says that steps go to the store from one with a single, empty context. -/
def Reached (st : Store)
    : Prop :=
  ∃ host arrangements, (Store.start host arrangements).Leads st

/-- The store that a session starts with is reached. -/
theorem Reached.start (host : Host) (arrangements : Nat → Arrangement := fun _ => .last)
    : (Store.start host arrangements).Reached :=
  ⟨host, arrangements, .refl⟩

/-- So is what a reached store leads to. -/
theorem Reached.leads {st after : Store} (reached : st.Reached) (leads : st.Leads after)
    : after.Reached := by
  obtain ⟨host, arrangements, before⟩ := reached
  exact ⟨host, arrangements, before.trans leads⟩

/-- What the start has and every step keeps holds of every reached store. -/
theorem Reached.induct {P : Store → Prop} {st : Store} (reached : st.Reached)
    (start : ∀ host arrangements, P (Store.start host arrangements))
    (step : ∀ {st after}, Step st after → P st → P after)
    : P st := by
  obtain ⟨host, arrangements, leads⟩ := reached
  induction leads with
  | refl => exact start host arrangements
  | tail _ last ih => exact step last ih

-----------------------------------------------------------------------------------------
-- Contexts along the way
-----------------------------------------------------------------------------------------

variable {st after : Store} {c k : ContextId} {space : String} {s : Symbol} {node : Node}
  {b : Bindings} {slot : Slot} {v : Value}

/-- A context that there is not is empty. -/
theorem context_of_size_le (beyond : st.contexts.size ≤ c)
    : st.context c = Context.empty := by
  have absent : ¬c < st.contexts.size := Nat.not_lt.mpr beyond
  simp [context, Array.getD, absent]

/-- A context with a slot is one that there is. -/
theorem lt_size_of_slot {d : Symbol} (stored : (st.context c).slots[d]? = some slot)
    : c < st.contexts.size := by
  rcases Nat.lt_or_ge c st.contexts.size with old | beyond
  · exact old
  · rw [context_of_size_le beyond] at stored
    simp [Context.empty] at stored

/-- A definition makes one context. -/
@[simp]
theorem size_define
    : (st.define c space s node b).2.contexts.size = st.contexts.size + 1 := by
  simp [define, add]

/-- The new context has the definition, and the others are as before. -/
theorem context_define
    : (st.define c space s node b).2.context k
      = if k = st.contexts.size then (st.context c).define st.contexts.size space s node b
        else st.context k := by
  simp only [context, define, add, Array.getD_eq_getD_getElem?, Array.getElem?_push]
  split <;> rfl

/-- So a context of before is as before. -/
theorem context_define_of_lt (old : k < st.contexts.size)
    : (st.define c space s node b).2.context k = st.context k := by
  rw [context_define, if_neg (Nat.ne_of_lt old)]

/-- (st.Grows after) says that contexts have only been added. -/
def Grows (st after : Store)
    : Prop :=
  st.contexts.size ≤ after.contexts.size ∧ ∀ c < st.contexts.size, after.context c = st.context c

/-- A store grows to itself. -/
theorem Grows.refl (st : Store)
    : st.Grows st :=
  ⟨Nat.le_refl _, fun _ _ => rfl⟩

/-- Growth goes on from store to store. -/
theorem Grows.trans {middle : Store} (first : st.Grows middle) (second : middle.Grows after)
    : st.Grows after := by
  refine ⟨Nat.le_trans first.1 second.1, fun c old => ?_⟩
  rw [second.2 c (Nat.lt_of_lt_of_le old first.1), first.2 c old]

/-- The contexts of a store before a step are there after it, the same as before. -/
theorem Step.grows (step : Step st after)
    : st.Grows after := by
  cases step with
  | define => exact ⟨by simp, fun _ old => context_define_of_lt old⟩
  | _ => exact ⟨Nat.le_refl _, fun _ _ => rfl⟩

/-- A store grows to what it leads to. Witness: induction on the steps. -/
theorem Leads.grows (leads : st.Leads after)
    : st.Grows after := by
  induction leads with
  | refl => exact .refl st
  | tail _ last ih => exact ih.trans last.grows

/-- A slot that a context finds is still found in what the store leads to. -/
theorem Leads.finds (leads : st.Leads after) (found : st.Finds c slot)
    : after.Finds c slot := by
  obtain ⟨k, stored⟩ := found
  exact ⟨k, by rwa [leads.grows.2 c (lt_size_of_slot stored)]⟩

/-- The host keeps its types on the way, and a sound host stays sound. -/
theorem Leads.host (leads : st.Leads after)
    : after.host.types = st.host.types ∧ (st.host.Sound → after.host.Sound) := by
  induction leads with
  | refl => exact ⟨rfl, id⟩
  | tail _ last ih =>
      cases last with
      | host next => exact ⟨next.types.trans ih.1, fun sound => (ih.2 sound).next next⟩
      | _ => exact ih

/-- The arrangements of tables to come are known from the start. -/
theorem Leads.arrangements_eq (leads : st.Leads after)
    : after.arrangements = st.arrangements := by
  induction leads with
  | refl => rfl
  | tail _ last ih => cases last <;> exact ih

-----------------------------------------------------------------------------------------
-- Runs
-----------------------------------------------------------------------------------------

/-- Every run takes its store along by steps. Witness: the steps of a course, of which giving a
slot its value is the only one that asks for something, a context that has the slot.
-/
instance course_leads : Course Leads where
  refl := .refl
  trans := Relation.ReflTransGen.trans
  define := .single (.define ..)
  identity := .single (.identity _)
  arrange := .single (.arrange _)
  output := .single (.output ..)
  host := fun next => .single (.host next)
  collected := .single (.collected ..)
  slot := fun inside => .head (.enter ..) (inside.tail (.leave ..))

/-- What a machine computes for a slot with a constant node is the constant. -/
theorem computeSlot_of_constant {m : Machine} {finder : ContextId} {scope : Scope} {w : Value}
    (constant : slot.node.constant? = some w)
    (ran : (m.computeSlot slot finder).outcome scope st = (.ok v, after))
    : v = w ∧ after = st := by
  unfold Machine.computeSlot at ran
  simp only [constant, Run.outcome_pure, Prod.mk.injEq, Except.ok.injEq] at ran
  exact ⟨ran.1.symm, ran.2.symm⟩

instance recollection_leads (tower : Nat → Machine) : Recollection tower Leads where
  remember := by
    intro n slot finder scope st after v found _ ran leads
    apply leads.tail
    apply Step.remember (leads.finds found)
    intro w constant
    exact (computeSlot_of_constant constant ran).1

/-- A slot that has a value keeps it through every run: only one without is given a value. -/
instance recollection_keeps
    : Recollection Machine.ofLevels (fun st after =>
        ∀ (id : SlotId) (v : Value), st.values[id]? = some v → after.values[id]? = some v) where
  refl := fun _ _ known => known
  trans := fun first second id v known => second id v (first id v known)
  define := fun _ _ known => known
  identity := fun _ _ known => known
  arrange := fun _ _ known => known
  output := fun _ _ known => known
  host := fun _ _ _ known => known
  collected := fun _ _ known => known
  slot := fun inside id v known => inside id v known
  remember := by
    intro n slot finder scope st after v _ unknown _ keeps id w known
    simp only [Store.remember, Std.ExtTreeMap.getElem?_insert,
      Std.LawfulEqCmp.compare_eq_iff_eq]
    split
    · rename_i same
      subst same
      rw [Store.value?, known] at unknown
      exact absurd unknown (by simp)
    · exact keeps id w known

/-- What a machine does to a reached store, whatever it is asked for and however it ends, leaves
a reached store.
-/
theorem Reached.outcome {α : Type} (reached : st.Reached) (x : Run α)
    [follows : Run.Follows Leads x] (scope : Scope)
    : (x.outcome scope st).2.Reached :=
  reached.leads (follows.follows scope st)

end Store
end IncrementalLisp
