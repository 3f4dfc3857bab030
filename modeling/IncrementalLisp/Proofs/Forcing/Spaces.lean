import IncrementalLisp.Proofs.Forcing.Watched
import IncrementalLisp.Proofs.Simulation.Similar

/-! The namespaces of definitions. Every slot records the namespace that was current where its
symbol was last defined, however often it was renewed since. It is computed in a context of that
namespace, unless that is the core: then it may be computed in a context whose own namespace could
not be found out, which a later try may find to be another one.
-/

namespace IncrementalLisp

open Run

variable {st middle after : Store} {c d : ContextId} {s k : Symbol} {space : String} {node : Node}
  {b : Bindings} {scope : Scope} {level : Nat} {slot : Slot}

namespace Store

-----------------------------------------------------------------------------------------
-- Recorded namespaces
-----------------------------------------------------------------------------------------

/-- The namespace that a context records for the definition of a symbol. -/
def spaceOf (st : Store) (c : ContextId) (k : Symbol)
    : Option String :=
  (st.context c).slots[k]?.map (·.space)

/-- A definition records its namespace for its own symbol, and whatever it renews keeps its own. -/
theorem spaceOf_define
    : (st.define c space s node b).2.spaceOf st.contexts.size k
      = if k = s.qualify space then some space else st.spaceOf c k := by
  unfold spaceOf
  rw [context_define, if_pos rfl, Context.getElem?_define]
  split
  · rfl
  · split
    · rw [Option.map_map]
      rfl
    · rfl

/-- A definition adds a context. -/
theorem lt_size_define
    : st.contexts.size < (st.define c space s node b).2.contexts.size := by
  rw [size_define]
  exact Nat.lt_succ_self _

/-- The namespace that a symbol was defined in stays the same for contexts of before, by their
growth.
-/
theorem spaceOf_of_leads (leads : st.Leads after) (old : c < st.contexts.size)
    : after.spaceOf c k = st.spaceOf c k := by
  rw [spaceOf, leads.grows.2 c old, spaceOf]

-----------------------------------------------------------------------------------------
-- Known namespaces
-----------------------------------------------------------------------------------------

/-- The current namespace of a context, if nothing has to be computed to know it. -/
def knownSpace? (st : Store) (c : ContextId)
    : Option String :=
  match (st.context c).slots[Symbol.currentSpace]? with
  | none => some coreSpace
  | some slot => (slot.node.constant?.or (st.value? slot)).map Value.asSpace

/-- A switch of the namespace makes it known. -/
theorem knownSpace?_define {v : Value}
    : (st.define c space Symbol.currentSpace (.constant v) b).2.knownSpace? st.contexts.size
      = some v.asSpace := by
  unfold knownSpace?
  rw [context_define, if_pos rfl, Context.getElem?_define, if_pos (by rfl)]
  rfl

/-- A namespace that is known stays known on the way, as long as no value is lost. -/
theorem Leaves.knownSpace? {active : List SlotId} (leaves : st.Leaves active after)
    (old : c < st.contexts.size) (known : st.knownSpace? c = some space)
    : after.knownSpace? c = some space := by
  unfold Store.knownSpace? at known ⊢
  rw [leaves.leads.grows.2 c old]
  split at known
  · exact known
  · rename_i slot _
    cases constant : slot.node.constant? with
    | some v => simpa [constant] using known
    | none =>
        rw [constant, Option.none_or] at known
        obtain ⟨v, value, rfl⟩ := Option.map_eq_some_iff.mp known
        simp [leaves.kept value]

end Store

namespace Machine

/-- A definition that succeeds asked for the namespace and then made one context. Witness: its two
steps.
-/
theorem define_eq_ok {m : Machine} (ran : (m.define c s node b).outcome scope st = (.ok d, after))
    : ∃ space middle, (m.currentSpace c).outcome scope st = (.ok space, middle)
        ∧ d = middle.contexts.size ∧ after = (middle.define c space s node b).2 := by
  unfold define at ran
  rw [outcome_bind_eq_ok] at ran
  obtain ⟨space, middle, asked, ran⟩ := ran
  cases ran
  exact ⟨space, middle, asked, rfl, rfl⟩

/-- What a slot that is asked for comes to is known from then on, and nothing is if it failed. -/
theorem known_forceSlot (level : Nat) (scope : Scope) (coherent : st.Coherent)
    (found : st.Finds c slot)
    : let forced := ((ofLevels level).forceSlot slot c).outcome scope st
      slot.node.constant?.or (forced.2.value? slot) = forced.1.toOption := by
  cases known : st.value? slot with
  | none =>
      have value := value?_forceSlot level scope coherent found known
      cases constant : slot.node.constant? with
      | none => exact value
      | some w =>
          unfold forceSlot computeSlot
          simp only [constant]
          rw [outcome_bind_of_eq_ok (outcome_get ..), known]
          rfl
  | some v =>
      unfold forceSlot
      rw [outcome_bind_of_eq_ok (outcome_get ..), known]
      cases constant : slot.node.constant? with
      | none => exact known
      | some w =>
          obtain ⟨k, stored⟩ := found
          rw [coherent.fixed stored constant known]
          rfl

/-- The same of an attempt to have the value of a slot, unless the fuel ends. -/
theorem known_of_attempt (coherent : st.Coherent) (found : st.Finds c slot)
    {result : Except EvalError Value}
    (ran : (attempt ((ofLevels level).force slot c)).outcome scope st = (.ok result, after))
    : slot.node.constant?.or (after.value? slot) = result.toOption := by
  rw [outcome_attempt] at ran
  cases level with
  | zero => cases ran
  | succ level =>
      obtain ⟨inner, same⟩
          : ∃ inner, ((ofLevels (level + 1)).force slot c).outcome scope st
              = ((ofLevels level).forceSlot slot c).outcome inner st := ⟨_, rfl⟩
      have known := known_forceSlot level inner coherent found
      rw [same] at ran
      rcases forced : ((ofLevels level).forceSlot slot c).outcome inner st with ⟨ended, last⟩
      rw [forced] at ran known
      rcases ended with (_ | _) | v <;> cases ran <;> exact known

/-- The namespace that a context is found to be in is known from then on, or it is the core because
the context failed to compute its own.
-/
theorem knownSpace?_of_currentSpace (coherent : st.Coherent)
    (ran : ((ofLevels level).currentSpace c).outcome scope st = (.ok space, after))
    : after.knownSpace? c = some space ∨ (space = coreSpace ∧ after.knownSpace? c = none) := by
  have leads : st.Leads after := Run.Follows.of_eq ran
  unfold currentSpace at ran
  rw [outcome_bind_of_eq_ok (outcome_context ..)] at ran
  unfold Store.knownSpace?
  split at ran
  · rename_i absent
    obtain ⟨rfl, rfl⟩ : coreSpace = space ∧ st = after := by simpa using ran
    simp [absent]
  · rename_i slot stored
    rw [leads.grows.2 c (Store.lt_size_of_slot stored), stored]
    rw [outcome_bind_eq_ok] at ran
    obtain ⟨result, middle, attempted, ran⟩ := ran
    have known := known_of_attempt coherent ⟨_, stored⟩ attempted
    cases result with
    | error e =>
        obtain ⟨rfl, rfl⟩ : coreSpace = space ∧ middle = after := by simpa using ran
        exact Or.inr ⟨rfl, by simp [known, Except.toOption]⟩
    | ok v =>
        have named : v.asSpace = space ∧ middle = after := by
          cases v <;> simpa [Value.asSpace] using ran
        obtain ⟨rfl, rfl⟩ := named
        exact Or.inl (by simp [known, Except.toOption])

/-- What machines do that compare under watch leaves the slots alone that are being computed. -/
theorem leaves_of_outcome {α : Type} {x : Machine → Run α} {result : Except Halt α}
    [runs
      : Run.Compared (.watching st.forcing) (x (watched (pure ()) level st.forcing))
          (x (ofLevels level))]
    (coherent : st.Coherent) (ran : (x (ofLevels level)).outcome scope st = (result, after))
    : st.Leaves st.forcing after := by
  have leaves := (runs.compared scope st rfl coherent).2.1
  rwa [ran] at leaves

/-- A namespace that is known is the one that is found, unless the fuel ends. -/
theorem currentSpace_of_knownSpace? (coherent : st.Coherent) (old : c < st.contexts.size)
    (known : st.knownSpace? c = some space) {found : String}
    (ran : ((ofLevels level).currentSpace c).outcome scope st = (.ok found, after))
    : found = space := by
  have machines := watching_ofLevels (pure ()) level st.forcing
  have leaves := leaves_of_outcome (x := (·.currentSpace c)) coherent ran
  have later := leaves.knownSpace? old known
  rcases knownSpace?_of_currentSpace coherent ran with same | ⟨_, failed⟩
  · exact Option.some.inj (same.symm.trans later)
  · rw [failed] at later
    cases later

/-- A slot is computed in a context whose namespace is known to be that of the slot. The exception
are slots of the core: they may be computed in a context that just failed to compute its own
namespace, and passes for one of the core because of that.
-/
theorem contextOf_space (reached : st.Reached) {finder : ContextId} (there : st.Finds finder slot)
    (ran : ((ofLevels level).contextOf slot finder).outcome scope st = (.ok d, after))
    : d < after.contexts.size
      ∧ (after.knownSpace? d = some slot.space
        ∨ (slot.space = coreSpace ∧ after.knownSpace? d = none)) := by
  have leads : st.Leads after := Run.Follows.of_eq ran
  unfold contextOf at ran
  rw [outcome_bind_eq_ok] at ran
  obtain ⟨living, asked, alive, ran⟩ := ran
  have collected : st.Leads asked := Run.Follows.of_eq alive
  have coherent := collected.coherent reached.coherent
  rw [outcome_bind_eq_ok] at ran
  obtain ⟨space, named, spoken, ran⟩ := ran
  split at ran
  · rename_i same
    obtain ⟨rfl, rfl⟩ : _ = d ∧ named = after := by simpa using ran
    rw [← eq_of_beq same]
    refine ⟨?_, knownSpace?_of_currentSpace coherent spoken⟩
    obtain ⟨k, stored⟩ := there
    have known := Nat.lt_of_lt_of_le (Store.lt_size_of_slot stored) leads.grows.1
    split
    · exact Nat.lt_of_le_of_lt (reached.coherent.owned stored) known
    · exact known
  · obtain ⟨_, last, _, rfl, rfl⟩ := define_eq_ok ran
    exact ⟨Store.lt_size_define, Or.inl Store.knownSpace?_define⟩

/-- A slot that was defined in another namespace than the core is computed in that namespace:
whoever asks for the namespace of the context in which it is computed finds that one, then and ever
after.
-/
theorem computed_in_own_space (reached : st.Reached) {finder : ContextId}
    (there : st.Finds finder slot) (apart : slot.space ≠ coreSpace)
    (ran : ((ofLevels level).contextOf slot finder).outcome scope st = (.ok d, middle))
    {active : List SlotId} {later : Store} (onward : middle.Leaves active later) {levels : Nat}
    {asking : Scope} {found : String}
    (asked : ((ofLevels levels).currentSpace d).outcome asking later = (.ok found, after))
    : found = slot.space := by
  have leads : st.Leads middle := Run.Follows.of_eq ran
  have coherent := leads.coherent reached.coherent
  obtain ⟨old, known | ⟨core, -⟩⟩ := contextOf_space reached there ran
  · exact currentSpace_of_knownSpace? (onward.leads.coherent coherent)
      (Nat.lt_of_lt_of_le old onward.leads.grows.1) (onward.knownSpace? old known) asked
  · exact absurd core apart

-----------------------------------------------------------------------------------------
-- Definitions in a row
-----------------------------------------------------------------------------------------

/-- (m.Defines st c definitions after d) says that a machine went from one context to another by
some definitions, whatever else was done between them. Each is listed with the namespace that was
current for it, the last one first.
-/
inductive Defines (m : Machine)
    : Store → ContextId → List (Symbol × String) → Store → ContextId → Prop where
  | start {st after : Store} {c : ContextId} (leads : st.Leads after)
    : m.Defines st c [] after c
  | next {st middle spoken later after : Store} {c d e : ContextId} {s : Symbol} {node : Node}
      {b : Bindings} {scope : Scope} {space : String} {definitions : List (Symbol × String)}
      (before : m.Defines st c definitions middle d)
      (asked : (m.currentSpace d).outcome scope middle = (.ok space, spoken))
      (defined : (m.define d s node b).outcome scope middle = (.ok e, later))
      (leads : later.Leads after)
    : m.Defines st c ((s.qualify space, space) :: definitions) after e

/-- A context records for each symbol the namespace that was current when the symbol was last
defined, however often its slot was renewed since. Witness: induction on the definitions.
-/
theorem recorded_space (old : c < st.contexts.size) {definitions : List (Symbol × String)}
    (defines : (ofLevels level).Defines st c definitions after d) (k : Symbol)
    : d < after.contexts.size
      ∧ after.spaceOf d k = (definitions.lookup k).or (st.spaceOf c k) := by
  induction defines with
  | start leads =>
      exact ⟨Nat.lt_of_lt_of_le old leads.grows.1, Store.spaceOf_of_leads leads old⟩
  | next before asked defined leads ih =>
      rename_i middle spoken later after c d e s node b scope space definitions
      obtain ⟨there, same⟩ := ih old
      have onward : middle.Leads spoken := Run.Follows.of_eq asked
      obtain ⟨_, _, found, rfl, rfl⟩ := define_eq_ok defined
      obtain ⟨rfl, rfl⟩ : space = _ ∧ spoken = _ := by simpa [asked] using found
      refine ⟨Nat.lt_of_lt_of_le Store.lt_size_define leads.grows.1, ?_⟩
      rw [Store.spaceOf_of_leads leads Store.lt_size_define, Store.spaceOf_define, List.lookup_cons]
      by_cases own : k = s.qualify space
      · simp [own]
      · have other : (k == s.qualify space) = false := beq_false_of_ne own
        simp [own, other, Store.spaceOf_of_leads onward there, same]

end Machine

end IncrementalLisp
