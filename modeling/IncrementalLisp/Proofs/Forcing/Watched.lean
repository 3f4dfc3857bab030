import IncrementalLisp.Proofs.Comparison.Expansion
import IncrementalLisp.Proofs.Store.Coherent

/-! Computing slots under watch. A watched machine works as the machine of as many levels does, and
knows besides, from the way its activities are nested, which slots are being computed around each
of them. It raises an alarm where the store has entered other slots than those when an activity
starts, or when the computation of a slot ended, whether or not it failed, where the computation of
a slot starts inside of itself, and where a computation leaves a value behind for the slot that it
is to compute. Whatever the alarm would do, a watched machine does what the other machine does: the
alarm is never raised.
-/

namespace IncrementalLisp

open Run

-----------------------------------------------------------------------------------------
-- The watch
-----------------------------------------------------------------------------------------

namespace Run

/-- Raises an alarm unless a condition holds. -/
def expect (alarm : Run Unit) (p : Prop) [Decidable p]
    : Run Unit :=
  if p then pure () else alarm

/-- Raises an alarm unless exactly the given slots are entered. -/
def expectForcing (alarm : Run Unit) (active : List SlotId)
    : Run Unit := do
  expect alarm ((← get).forcing = active)

/-- Raises an alarm if a slot has a value. -/
def expectUncomputed (alarm : Run Unit) (slot : Slot)
    : Run Unit := do
  expect alarm ((← get).value? slot = none)

/-- A computation after which, however it ended, another one is done. -/
def followedBy {α : Type} (x : Run α) (last : Run Unit)
    : Run α := do
  let result ← tryCatch (do return Except.ok (← x)) fun h => pure (.error h)
  last
  match result with
  | .ok a => return a
  | .error h => throw h

end Run

namespace Machine

variable (alarm : Run Unit) (active : List SlotId) (inner : List SlotId → Machine)

/-- The value that a slot computes on the machine that knows of this computation, too. -/
def watchedCompute (slot : Slot) (finder : ContextId)
    : Run Value :=
  match slot.node.constant? with
  | some v => pure v
  | none => insideSlot slot do
      expect alarm (slot.id ∉ active)
      let within := inner (slot.id :: active)
      let c ← within.contextOf slot finder
      within.compute slot.node c slot.bindings

/-- The value of a slot, which has none before and after it is computed. -/
def watchedForce (slot : Slot) (finder : ContextId)
    : Run Value := do
  match (← get).value? slot with
  | some v => return v
  | none =>
      let v ← (watchedCompute alarm active inner slot finder).followedBy
        (expectUncomputed alarm slot)
      modify (·.remember slot v)
      return v

/-- The watched machine of a number of levels, around which the active slots are being computed. -/
def watched (alarm : Run Unit) : Nat → List SlotId → Machine
  | 0, _ => .exhausted
  | n + 1, active =>
      { eval := fun node c b => do
          expectForcing alarm active
          inContext c
            (holding (.node node :: b.values) ((watched alarm n active).evalNode node c b))
        call := fun callee args c => do
          expectForcing alarm active
          (watched alarm n active).callValue callee args c
        force := fun slot c => do
          expectForcing alarm active
          (inContext c (watchedForce alarm active (watched alarm n) slot c)).followedBy
            (expectForcing alarm active)
        expand := fun e c form k => do
          expectForcing alarm active
          inContext c (holding [.expander e, form, .expander k]
            ((watched alarm n active).expandForm e c form k)) }

end Machine

namespace Run

variable {α : Type} {alarm : Run Unit} {active : List SlotId} {scope : Scope} {st : Store}

/-- A run that is followed by another one ends as it ended, unless the other one fails. Witness: the
outcomes of both, case by case.
-/
theorem outcome_followedBy (x : Run α) (last : Run Unit)
    : (x.followedBy last).outcome scope st
      = match x.outcome scope st with
        | (result, middle) =>
            match last.outcome scope middle with
            | (.ok _, after) => (result, after)
            | (.error h, after) => (.error h, after) := by
  unfold followedBy
  rw [outcome_bind, outcome_tryCatch, outcome_bind]
  rcases x.outcome scope st with ⟨result, middle⟩
  cases result <;> simp only [outcome_pure, outcome_bind] <;>
    rcases last.outcome scope middle with ⟨ended, after⟩ <;> cases ended <;> rfl

/-- An expectation that is met changes nothing about what comes after it. -/
theorem outcome_expectForcing_bind (same : st.forcing = active) (x : Run α)
    : (do expectForcing alarm active; x).outcome scope st = x.outcome scope st := by
  simp [expectForcing, expect, outcome_bind, same]

/-- To expect some slots to be entered after a run changes nothing if they are. -/
theorem outcome_followedBy_expectForcing {x : Run α}
    (same : (x.outcome scope st).2.forcing = active)
    : (x.followedBy (expectForcing alarm active)).outcome scope st = x.outcome scope st := by
  simp [outcome_followedBy, expectForcing, expect, outcome_bind, same]

/-- To expect no value after a run changes nothing if the run leaves none. -/
theorem outcome_followedBy_expectUncomputed {x : Run α} {slot : Slot}
    (uncomputed : (x.outcome scope st).2.value? slot = none)
    : (x.followedBy (expectUncomputed alarm slot)).outcome scope st = x.outcome scope st := by
  simp [outcome_followedBy, expectUncomputed, expect, outcome_bind, uncomputed]

end Run

-----------------------------------------------------------------------------------------
-- What a computation restores
-----------------------------------------------------------------------------------------

/-- (st.Restores after) says that the same slots are being computed in both stores. -/
def Store.Restores (st after : Store)
    : Prop :=
  after.forcing = st.forcing

instance course_restores : Course Store.Restores where
  refl := rfl
  trans := fun first second => Eq.trans second first
  define := rfl
  identity := rfl
  arrange := rfl
  output := rfl
  host := fun _ => rfl
  collected := rfl
  slot := Store.forcing_leave

/-- Whatever a machine does, whether or not it fails, it leaves the slots that it enters. -/
instance recollection_restores (tower : Nat → Machine) : Recollection tower Store.Restores where
  remember := fun _ _ _ restores => restores

-----------------------------------------------------------------------------------------
-- What a computation leaves alone
-----------------------------------------------------------------------------------------

variable {active : List SlotId} {scope : Scope} {st after : Store} {c : ContextId} {slot : Slot}

/-- (st.Leaves active after) says that a run goes from one store to the other in which no value is
lost or replaced, and the slots that are being computed around it get none.
-/
structure Store.Leaves (active : List SlotId) (st after : Store) : Prop where
  leads : st.Leads after
  kept : ∀ {slot v}, st.value? slot = some v → after.value? slot = some v
  untouched
    : st.Coherent → ∀ {c slot}, st.Finds c slot → slot.node.constant? = none
        → slot.id ∈ active → after.value? slot = st.value? slot

/-- A run that leaves some slots alone leaves fewer of them alone. -/
theorem Store.Leaves.fewer {id : SlotId} (leaves : st.Leaves (id :: active) after)
    : st.Leaves active after :=
  { leaves with
    untouched := fun coherent _ _ found varies member =>
      leaves.untouched coherent found varies (List.mem_cons_of_mem id member) }

/-- A run that does not touch the values leaves every slot alone. -/
theorem Store.Leaves.of_same_values (leads : st.Leads after) (same : after.values = st.values)
    : st.Leaves active after :=
  ⟨leads, fun known => by rwa [Store.value?, same],
    fun _ _ _ _ _ _ => by rw [Store.value?, same, Store.value?]⟩

instance course_leaves : Course (Store.Leaves active) where
  refl := .of_same_values Course.refl rfl
  trans := fun first second =>
    ⟨Course.trans first.leads second.leads, fun known => second.kept (first.kept known),
      fun coherent _ _ found varies member =>
        (second.untouched (first.leads.coherent coherent) (first.leads.finds found) varies
          member).trans (first.untouched coherent found varies member)⟩
  define := .of_same_values Course.define rfl
  identity := .of_same_values Course.identity rfl
  arrange := .of_same_values Course.arrange rfl
  output := .of_same_values Course.output rfl
  host := fun next => .of_same_values (Course.host next) rfl
  collected := .of_same_values Course.collected rfl
  slot := fun {st _ id} inside =>
    { leads := Course.slot inside.leads
      kept := inside.kept
      untouched := fun coherent =>
        inside.untouched (Store.Leads.coherent (.single (.enter st id)) coherent) }

/-- After a slot's value was remembered that slot has it, and the others have theirs. -/
theorem Store.value?_remember {other : Slot} {v : Value}
    : (st.remember slot v).value? other
      = if slot.id = other.id then some v else st.value? other := by
  simp only [Store.value?, Store.remember, Std.ExtTreeMap.getElem?_insert,
    Std.LawfulEqCmp.compare_eq_iff_eq]

/-- To give a slot without a value one leaves the slots alone that are being computed, if it is none
of them.
-/
theorem Store.Leaves.remember (leaves : st.Leaves active after) (coherent : st.Coherent)
    (found : st.Finds c slot) {v : Value} (fixed : ∀ w, slot.node.constant? = some w → v = w)
    (uncomputed : after.value? slot = none)
    (apart : slot.node.constant? = none → slot.id ∉ active)
    : st.Leaves active (after.remember slot v) where
  leads := leaves.leads.tail (.remember (leaves.leads.finds found) fixed)
  kept := by
    intro other w known
    have before := leaves.kept known
    rw [Store.value?_remember]
    split
    · rename_i same
      rw [Store.value?, same] at uncomputed
      rw [Store.value?, uncomputed] at before
      cases before
    · exact before
  untouched := by
    intro _ d other known varies member
    rw [← leaves.untouched coherent known varies member, Store.value?_remember]
    split
    · rename_i same
      obtain rfl := coherent.eq_of_id found known same
      exact absurd member (apart varies)
    · rfl

-----------------------------------------------------------------------------------------
-- The watched machine and the other one
-----------------------------------------------------------------------------------------

/-- The comparison of runs inside of the computations of some slots: both have the same outcome in a
coherent store, leave those slots alone, and leave the slots that they enter.
-/
def Comparison.watching (active : List SlotId) : Comparison where
  holds x y scope st :=
    st.forcing = active → st.Coherent
      → x.outcome scope st = y.outcome scope st ∧ st.Leaves active (y.outcome scope st).2
        ∧ st.Restores (y.outcome scope st).2
  slots := Store.Finds
  found := id
  plain plainly _ _ := ⟨rfl, plainly _ inferInstance, plainly _ inferInstance⟩
  bind := by
    intro _ _ x y f g scope st first second same coherent
    obtain ⟨equal, leaves, restores⟩ := first same coherent
    rw [outcome_bind, outcome_bind, equal]
    rcases step : y.outcome scope st with ⟨result, middle⟩
    rw [step] at equal leaves restores
    cases result with
    | error h => exact ⟨rfl, leaves, restores⟩
    | ok a =>
        obtain ⟨rest, onward, later⟩ :=
          second a middle equal (restores.trans same) (leaves.leads.coherent coherent)
        exact ⟨rest, Course.trans leaves onward, Course.trans restores later⟩
  attempt := by
    intro _ x y scope st first same coherent
    obtain ⟨equal, leaves, restores⟩ := first same coherent
    rw [outcome_attempt, outcome_attempt, equal]
    rcases step : y.outcome scope st with ⟨result, middle⟩
    rw [step] at leaves restores
    cases result with
    | ok a => exact ⟨rfl, leaves, restores⟩
    | error h => cases h <;> exact ⟨rfl, leaves, restores⟩
  inside holds := holds

namespace Machine

variable {alarm : Run Unit} {level : Nat}

/-- The watched computation of a slot has the outcome of the other one, leaves the slot without a
value, and restores which slots are being computed, if the machines compare inside of the
computation.
-/
theorem watching_compute
    (machines
      : ∀ active, Compared (.watching active) (watched alarm level active) (ofLevels level))
    (coherent : st.Coherent) (found : st.Finds c slot) (unknown : st.value? slot = none)
    (same : st.forcing = active)
    : let computed := ((ofLevels level).computeSlot slot c).outcome scope st
      (watchedCompute alarm active (watched alarm level) slot c).outcome scope st = computed
        ∧ st.Leaves active computed.2 ∧ st.Restores computed.2 ∧ computed.2.value? slot = none
        ∧ ∀ v, computed.1 = .ok v → slot.node.constant? = none → slot.id ∉ active := by
  unfold watchedCompute computeSlot
  cases constant : slot.node.constant? with
  | some v => exact ⟨rfl, Course.refl, rfl, unknown, by simp⟩
  | none =>
      dsimp only
      rw [outcome_insideSlot, outcome_insideSlot, same]
      by_cases member : slot.id ∈ active
      · rw [if_pos (List.contains_iff_mem.mpr member), if_pos (List.contains_iff_mem.mpr member)]
        exact ⟨rfl, Course.refl, rfl, unknown, by simp⟩
      · have inside := machines (slot.id :: active)
        have runs : Run.Compared (.watching (slot.id :: active))
            (do
              let c ← (watched alarm level (slot.id :: active)).contextOf slot c
              (watched alarm level (slot.id :: active)).compute slot.node c slot.bindings)
            (do
              let c ← (ofLevels level).contextOf slot c
              (ofLevels level).compute slot.node c slot.bindings) := inferInstance
        have entered : (st.enter slot.id).Coherent :=
          Store.Leads.coherent (.single (.enter ..)) coherent
        obtain ⟨equal, leaves, restores⟩ :=
          runs.compared scope (st.enter slot.id) (congrArg (slot.id :: ·) same) entered
        have kept := leaves.untouched entered found constant List.mem_cons_self
        have apart : ¬active.contains slot.id = true := by simpa using member
        rw [if_neg apart, if_neg apart]
        refine ⟨?_, Course.slot leaves.fewer, Course.slot restores, kept.trans unknown,
          fun _ _ _ => member⟩
        rw [← equal]
        simp [expect, member, outcome_bind]

/-- So has the watched value of a slot. -/
theorem watching_force
    (machines
      : ∀ active, Compared (.watching active) (watched alarm level active) (ofLevels level))
    (found : st.Finds c slot)
    : (Comparison.watching active).holds (watchedForce alarm active (watched alarm level) slot c)
        ((ofLevels level).forceSlot slot c) scope st := by
  intro same coherent
  unfold watchedForce forceSlot
  rw [outcome_bind_of_eq_ok (outcome_get ..), outcome_bind_of_eq_ok (outcome_get ..)]
  cases known : st.value? slot with
  | some v => exact ⟨rfl, Course.refl, rfl⟩
  | none =>
      dsimp only
      obtain ⟨equal, leaves, restores, uncomputed, apart⟩ :=
        watching_compute machines coherent found known same
      rw [outcome_bind, outcome_bind,
        outcome_followedBy_expectUncomputed (by rw [equal]; exact uncomputed), equal]
      rcases step : ((ofLevels level).computeSlot slot c).outcome scope st with ⟨result, middle⟩
      rw [step] at leaves restores apart uncomputed
      cases result with
      | error h => exact ⟨rfl, leaves, restores⟩
      | ok v =>
          have fixed (w : Value) (constant : slot.node.constant? = some w) : v = w :=
            (Store.computeSlot_of_constant constant step).1
          exact ⟨rfl, leaves.remember coherent found fixed uncomputed (apart v rfl), restores⟩

/-- The activities of a watched machine have the outcomes of those of the other machine. Witness:
induction on the levels; the computation of a slot starts on the machine that knows of it.
-/
theorem watching_ofLevels (alarm : Run Unit) (level : Nat) (active : List SlotId)
    : Compared (.watching active) (watched alarm level active) (ofLevels level) := by
  induction level generalizing active with
  | zero =>
      exact ⟨fun _ _ _ => .plain Run.exhausted, fun _ _ _ => .plain Run.exhausted,
        fun _ => (Run.Compared.plain Run.exhausted).compared _ _,
        fun _ _ _ _ => .plain Run.exhausted⟩
  | succ level ih =>
      have machines := ih active
      constructor
      · intro node c b
        constructor
        intro scope st same coherent
        simp only [watched, outcome_expectForcing_bind same]
        exact (Run.Compared.inContext c (C := .watching active) _ _).compared scope st same coherent
      · intro callee args c
        constructor
        intro scope st same coherent
        simp only [watched, outcome_expectForcing_bind same]
        exact (compared_callValue (C := .watching active) callee args c).compared scope st same coherent
      · intro slot c scope st found same coherent
        obtain ⟨equal, leaves, restores⟩ :=
          (Comparison.watching active).inside (f := (·.entering c)) (watching_force ih found) same
            coherent
        simp only [watched, outcome_expectForcing_bind same]
        rw [outcome_followedBy_expectForcing (by rw [inContext, equal]; exact restores.trans same)]
        exact ⟨equal, leaves, restores⟩
      · intro e c form k
        constructor
        intro scope st same coherent
        simp only [watched, outcome_expectForcing_bind same]
        exact (Run.Compared.inContext c (C := .watching active) _ _).compared scope st same coherent

/-- A slot that is asked for has the value afterwards that it was computed to have, or still none if
the computation failed.
-/
theorem value?_forceSlot (level : Nat) (scope : Scope) (coherent : st.Coherent)
    (found : st.Finds c slot) (unknown : st.value? slot = none)
    : let forced := ((ofLevels level).forceSlot slot c).outcome scope st
      forced.2.value? slot = forced.1.toOption := by
  obtain ⟨-, -, -, uncomputed, -⟩ := watching_compute (watching_ofLevels (pure ()) level) coherent
    found unknown (Eq.refl st.forcing)
  unfold forceSlot
  rw [outcome_bind_of_eq_ok (outcome_get ..), unknown]
  dsimp only
  rw [outcome_bind]
  rcases step : ((ofLevels level).computeSlot slot c).outcome scope st with ⟨result, middle⟩
  rw [step] at uncomputed
  cases result with
  | error h => exact uncomputed
  | ok v =>
      change (middle.remember slot v).value? slot = some v
      rw [Store.value?_remember, if_pos rfl]

end Machine

end IncrementalLisp
