import IncrementalLisp.Machine.Tower
import IncrementalLisp.Proofs.Forcing.Reading
import IncrementalLisp.Proofs.Machine.Activities

/-! Runs that come to their end. In a store of definitions that only read, each function of the
evaluator comes to an end if the evaluations of its parts and of slots do, and adds no slots but
constants.
-/

namespace IncrementalLisp

namespace Run

/-- (FinishesAt S p x scope st) says that the run keeps the slots of the store among some slots, and
that it comes to an end before its fuel does, if a condition holds of the slots being computed.
Those are the same after it.
-/
def FinishesAt (S : Set Slot) (p : List SlotId → Prop) {α : Type} (x : Run α) (scope : Scope)
    (st : Store)
    : Prop :=
  (x.outcome scope st).2.Within S
    ∧ (x.outcome scope st).2.forcing = st.forcing
    ∧ (p st.forcing → (x.outcome scope st).1 ≠ .error .outOfFuel)

/-- A run that ends from every store with slots among some slots. -/
class Finishes (S : Set Slot) (p : List SlotId → Prop) {α : Type} (x : Run α) : Prop where
  finishes : ∀ {scope : Scope} {st : Store}, st.Within S → FinishesAt S p x scope st

variable {S : Set Slot} {p : List SlotId → Prop} {α β : Type}

instance Finishes.pure (a : α)
    : Finishes S p (pure a : Run α) :=
  ⟨fun within => ⟨within, rfl, fun _ => nofun⟩⟩

instance Finishes.fail (e : EvalError)
    : Finishes S p (fail e : Run α) :=
  ⟨fun within => ⟨within, rfl, fun _ => nofun⟩⟩

instance Finishes.read
    : Finishes S p (read : Run Scope) :=
  ⟨fun within => ⟨within, rfl, fun _ => nofun⟩⟩

instance Finishes.get
    : Finishes S p (get : Run Store) :=
  ⟨fun within => ⟨within, rfl, fun _ => nofun⟩⟩

/-- A step that leaves the contexts as they are, and the slots that are being computed. -/
theorem Finishes.step {f : Store → Store} (same : ∀ st, (f st).contexts = st.contexts)
    (forcing : ∀ st, (f st).forcing = st.forcing)
    : Finishes S p (modify f : Run Unit) :=
  ⟨fun within => ⟨within.aside (same _), forcing _, fun _ => nofun⟩⟩

instance Finishes.newIdentity
    : Finishes S p newIdentity :=
  ⟨fun within => ⟨within.aside rfl, rfl, fun _ => nofun⟩⟩

instance Finishes.newArrangement
    : Finishes S p newArrangement :=
  ⟨fun within => ⟨within.aside rfl, rfl, fun _ => nofun⟩⟩

/-- A sequence comes to an end when its first part does and its second part does from every result
that the first can have.
-/
theorem FinishesAt.bind {x : Run α} {f : α → Run β} {scope : Scope} {st : Store}
    (first : FinishesAt S p x scope st)
    (second
      : ∀ a middle,
          x.outcome scope st = (.ok a, middle) → middle.Within S →
            FinishesAt S p (f a) scope middle)
    : FinishesAt S p (x >>= f) scope st := by
  unfold FinishesAt at first second ⊢
  rw [outcome_bind]
  rcases step : x.outcome scope st with ⟨result, middle⟩
  rw [step] at first
  obtain ⟨within, forcing, ends⟩ := first
  cases result with
  | error h => exact ⟨within, forcing, fun allowed same => ends allowed (by simpa using same)⟩
  | ok a =>
      obtain ⟨later, same, ended⟩ := second a middle step within
      exact ⟨later, same.trans forcing, fun allowed => ended (forcing ▸ allowed)⟩

instance Finishes.bind (x : Run α) (f : α → Run β) [Finishes S p x] [∀ a, Finishes S p (f a)]
    : Finishes S p (x >>= f) :=
  ⟨fun within => (Finishes.finishes within).bind fun _ _ _ later => Finishes.finishes later⟩

/-- The same with the second part left to prove, for one that analyses the result of the first. -/
theorem Finishes.andThen {x : Run α} {f : α → Run β} [Finishes S p x]
    (second : ∀ a, Finishes S p (f a))
    : Finishes S p (x >>= f) :=
  Finishes.bind x f

/-- A run finishes in its attempt if it does by itself, since only running out of fuel goes through.
-/
theorem FinishesAt.attempt {x : Run α} {scope : Scope} {st : Store}
    (ends : FinishesAt S p x scope st)
    : FinishesAt S p (attempt x) scope st := by
  unfold FinishesAt at ends ⊢
  rw [outcome_attempt]
  rcases step : x.outcome scope st with ⟨result, middle⟩
  rw [step] at ends
  obtain ⟨within, forcing, ended⟩ := ends
  rcases result with (e | _) | a
  · exact ⟨within, forcing, fun _ => nofun⟩
  · exact ⟨within, forcing, fun allowed => absurd rfl (ended allowed)⟩
  · exact ⟨within, forcing, fun _ => nofun⟩

instance Finishes.ite (q : Prop) [Decidable q] (x y : Run α) [Finishes S p x] [Finishes S p y]
    : Finishes S p (if q then x else y) := by
  split <;> infer_instance

instance Finishes.arrangementIf (needed : Bool)
    : Finishes S p (arrangementIf needed) := by
  unfold Run.arrangementIf
  infer_instance

instance Finishes.arrangementFor (count : Nat)
    : Finishes S p (arrangementFor count) := by
  unfold Run.arrangementFor
  infer_instance

instance Finishes.ofExcept (result : Except EvalError α)
    : Finishes S p (ofExcept result) := by
  cases result <;> unfold Run.ofExcept <;> infer_instance

instance Finishes.context (c : ContextId)
    : Finishes S p (context c) := by
  unfold Run.context
  infer_instance

instance Finishes.askHost (question : Host → Except EvalError α × Host)
    : Finishes S p (askHost question) := by
  have kept (host : Host) : Finishes S p (modify ({ · with host := host }) : Run Unit) :=
    .step (fun _ => rfl) fun _ => rfl
  unfold Run.askHost
  apply Finishes.andThen
  intro st
  split
  infer_instance

instance Finishes.isLiving (c : ContextId)
    : Finishes S p (isLiving c) := by
  have kept (held : ContextId → Bool) : Finishes S p (modify (·.collected held) : Run Unit) :=
    .step (fun _ => rfl) fun _ => rfl
  unfold Run.isLiving
  infer_instance

/-- A run in a context finishes if it does whatever the contexts at hand are. -/
theorem FinishesAt.inContext {c : ContextId} {x : Run α} {scope : Scope} {st : Store}
    (ends : ∀ held, FinishesAt S p x { scope with held := held } st)
    : FinishesAt S p (inContext c x) scope st :=
  ends (scope.entering c).held

instance Finishes.inContext (c : ContextId) (x : Run α) [Finishes S p x]
    : Finishes S p (inContext c x) :=
  ⟨fun within => .inContext fun _ => Finishes.finishes within⟩

/-- So does a run while values are at hand. -/
theorem FinishesAt.holding {values : List Value} {x : Run α} {scope : Scope} {st : Store}
    (ends : ∀ held, FinishesAt S p x { scope with held := held } st)
    : FinishesAt S p (holding values x) scope st :=
  ends (scope.holding values).held

instance Finishes.holding (values : List Value) (x : Run α) [Finishes S p x]
    : Finishes S p (holding values x) :=
  ⟨fun within => .holding fun _ => Finishes.finishes within⟩

/-- A sequence of runs finishes if each of them does. Witness: induction on the items. -/
theorem Finishes.gather {value : β → Value} {f : α → Run β} {items : List α}
    (each : ∀ a ∈ items, Finishes S p (f a))
    : Finishes S p (gather value f items) := by
  induction items with
  | nil =>
      unfold Run.gather
      infer_instance
  | cons a rest ih =>
      have first := each a List.mem_cons_self
      have others := ih fun b member => each b (List.mem_cons_of_mem a member)
      unfold Run.gather
      infer_instance

/-- The computation of a slot ends if that of its contents does with the slot being computed. -/
theorem Finishes.insideSlot {q : List SlotId → Prop} {slot : Slot} {x : Run α} [Finishes S p x]
    (deeper : ∀ forcing, q forcing → slot.id ∉ forcing → p (slot.id :: forcing))
    : Finishes S q (insideSlot slot x) where
  finishes := by
    intro scope st within
    unfold FinishesAt
    rw [outcome_insideSlot]
    split
    · exact ⟨within, rfl, fun _ => nofun⟩
    · rename_i outside
      obtain ⟨later, forcing, ends⟩ : FinishesAt S p x scope (st.enter slot.id) :=
        Finishes.finishes (within.aside rfl)
      exact ⟨later.aside rfl, Store.forcing_leave forcing,
        fun allowed => ends (deeper _ allowed (by simpa using outside))⟩

end Run

/-- A machine that gives the slots of contexts their values so that the runs end. -/
class Machine.Forces (S : Set Slot) (p : List SlotId → Prop) (m : Machine) : Prop where
  forces
    : ∀ {slot : Slot} {finder : ContextId} {scope : Scope} {st : Store},
        st.Within S → st.Finds finder slot → Run.FinishesAt S p (m.force slot finder) scope st

namespace Machine

open Run

variable {S : Set Slot} {p : List SlotId → Prop} {m : Machine} [m.Forces S p]

-----------------------------------------------------------------------------------------
-- Names
-----------------------------------------------------------------------------------------

instance finishes_currentSpace (c : ContextId)
    : Run.Finishes S p (m.currentSpace c) where
  finishes := by
    intro scope st within
    unfold currentSpace
    refine (Finishes.finishes within).bind ?_
    rintro found middle read -
    obtain ⟨rfl, rfl⟩ : st.context c = found ∧ st = middle := by simpa using read
    split
    · exact Finishes.finishes within
    · rename_i slot stored
      refine (Forces.forces within ⟨_, stored⟩).attempt.bind ?_
      intro result after _ later
      split <;> exact Finishes.finishes later

instance finishes_qualify (c : ContextId) (s : Symbol)
    : Run.Finishes S p (m.qualify c s) := by
  unfold qualify
  infer_instance

instance finishes_slot? (c : ContextId) (s : Symbol)
    : Run.Finishes S p (m.slot? c s) := by
  unfold slot?
  infer_instance

instance finishes_valueOf (c : ContextId) (s : Symbol)
    : Run.Finishes S p (m.valueOf c s) where
  finishes := by
    intro scope st within
    unfold valueOf
    refine (Finishes.finishes within).bind ?_
    intro found middle search later
    cases found with
    | none => exact Finishes.finishes later
    | some slot => exact Forces.forces later (finds_of_slot? search)

/-- A switch of the namespace. -/
instance finishes_switch (c : ContextId) (v : Value)
    : Run.Finishes S p (m.define c Symbol.currentSpace (.constant v) []) := by
  have added (space : String)
      : Run.Finishes S p
          (modifyGet (·.define c space Symbol.currentSpace (.constant v) []) : Run ContextId) :=
    ⟨fun within => ⟨within.define (Node.ignoresSpace_constant v) (.inl rfl)
      (.inl (Symbol.qualify_of_isQualified space rfl)), rfl, fun _ => nofun⟩⟩
  unfold define
  infer_instance

-----------------------------------------------------------------------------------------
-- Evaluation
-----------------------------------------------------------------------------------------

section Parts

omit [m.Forces S p]

instance finishes_compute (n : Node) (c : ContextId) (b : Bindings)
    [Run.Finishes S p (m.eval n c b)]
    : Run.Finishes S p (m.compute n c b) := by
  unfold compute
  infer_instance

/-- The values of nodes finish if each node's evaluation does, as a sequence of runs. -/
theorem finishes_computeAll {nodes : List Node}
    (parts : ∀ part ∈ nodes, ∀ c b, Run.Finishes S p (m.eval part c b)) (c : ContextId)
    (b : Bindings)
    : Run.Finishes S p (m.computeAll nodes c b) := by
  unfold computeAll
  apply Finishes.gather
  intro part member
  have := parts part member
  infer_instance

/-- A sequence finishes if each node's evaluation does. Witness: induction on the nodes. -/
theorem finishes_evalSequence {nodes : List Node}
    (parts : ∀ part ∈ nodes, ∀ c b, Run.Finishes S p (m.eval part c b)) (last : Value)
    (c : ContextId)
    (b : Bindings)
    : Run.Finishes S p (m.evalSequence nodes last c b) := by
  induction nodes generalizing last c with
  | nil =>
      unfold evalSequence
      infer_instance
  | cons node rest ih =>
      have first := parts node List.mem_cons_self
      have others := ih fun part member => parts part (List.mem_cons_of_mem node member)
      unfold evalSequence
      infer_instance

/-- Bindings finish if the evaluation of each expression does. Witness: induction on the pairs. -/
theorem finishes_evalPairs {pairs : List (Symbol × Node)}
    (parts : ∀ part ∈ pairs.map (·.2), ∀ c b, Run.Finishes S p (m.eval part c b))
    (outer b : Bindings)
    (c : ContextId)
    : Run.Finishes S p (m.evalPairs outer pairs b c) := by
  induction pairs generalizing b c with
  | nil =>
      unfold evalPairs
      infer_instance
  | cons pair rest ih =>
      have first := parts pair.2 List.mem_cons_self
      have others := ih fun part member => parts part (List.mem_cons_of_mem pair.2 member)
      unfold evalPairs
      infer_instance

end Parts

/-- The evaluation of a node that only reads ends if those of its parts do. -/
theorem finishes_evalNode {n : Node} (reads : n.shape.onlyReads)
    (parts : ∀ part ∈ n.shape.parts, ∀ c b, Run.Finishes S p (m.eval part c b)) (c : ContextId)
    (b : Bindings)
    : Run.Finishes S p (m.evalNode n c b) := by
  unfold evalNode
  generalize n.shape = shape at reads parts
  cases shape with
  | apply | define => cases reads
  | constant v => infer_instance
  | quote form isSyntax => infer_instance
  | lambda params rest body =>
      unfold closureOf
      infer_instance
  | expander continuation params body =>
      unfold userExpanderOf
      infer_instance
  | lookup s =>
      dsimp only
      split <;> infer_instance
  | sequence body => exact finishes_evalSequence parts .nil c b
  | conditional test yes no =>
      have tests := parts test (by simp [Shape.parts])
      have accepts := parts yes (by simp [Shape.parts])
      have rejects := parts no (by simp [Shape.parts])
      have branch (v : Value) (d : ContextId)
          : Run.Finishes S p (m.eval (if v.isTruthy then yes else no) d b) := by
        split <;> infer_instance
      infer_instance
  | binding pairs body =>
      have inner := parts body List.mem_cons_self
      have outer :=
        finishes_evalPairs fun part member => parts part (List.mem_cons_of_mem body member)
      infer_instance
  | vector items | list items | set items =>
      have values : Run.Finishes S p (m.computeAll items c b) := finishes_computeAll parts c b
      infer_instance
  | hashMap items =>
      have values : Run.Finishes S p (m.computeAll items c b) := finishes_computeAll parts c b
      refine Finishes.andThen fun found => Finishes.andThen fun a => ?_
      split <;> infer_instance
  | invoke target member args =>
      have first := parts target List.mem_cons_self
      have values :=
        finishes_computeAll (fun part listed => parts part (List.mem_cons_of_mem target listed)) c b
      infer_instance
  | invokeStatic type member args =>
      have values : Run.Finishes S p (m.computeAll args c b) := finishes_computeAll parts c b
      infer_instance
  | cast type expr =>
      have first := parts expr List.mem_cons_self
      infer_instance
  | instanceOf type expr =>
      have first := parts type List.mem_cons_self
      have second := parts expr (by simp [Shape.parts])
      refine Finishes.andThen fun found => ?_
      split <;> infer_instance

-----------------------------------------------------------------------------------------
-- Slots
-----------------------------------------------------------------------------------------

instance finishes_contextOf (slot : Slot) (finder : ContextId)
    : Run.Finishes S p (m.contextOf slot finder) := by
  unfold contextOf
  infer_instance

/-- A slot is computed if its node is evaluated with the slot among those being computed. -/
theorem finishes_computeSlot {q : List SlotId → Prop} {slot : Slot}
    (deeper
      : ∀ forcing, slot ∈ S → q forcing → slot.id ∉ forcing → p (slot.id :: forcing))
    (evaluated : slot ∈ S → ∀ c b, Run.Finishes S p (m.eval slot.node c b)) {finder : ContextId}
    {scope : Scope} {st : Store} (within : st.Within S) (found : st.Finds finder slot)
    : Run.FinishesAt S q (m.computeSlot slot finder) scope st := by
  unfold computeSlot
  split
  · exact Finishes.finishes within
  · rename_i variable_
    have among : slot ∈ S := by
      refine (within.slots found).resolve_left fun constant => ?_
      rw [Node.isConstant, variable_] at constant
      cases constant
    have inner := evaluated among
    exact (Finishes.insideSlot fun forcing => deeper forcing among).finishes within

/-- To force a slot finishes if its node's evaluation does, once one more slot is being computed.
Witness: a slot that is being computed already fails at once, and any other one counts as deeper.
-/
theorem finishes_forceSlot {q : List SlotId → Prop} {slot : Slot}
    (deeper
      : ∀ forcing, slot ∈ S → q forcing → slot.id ∉ forcing → p (slot.id :: forcing))
    (evaluated : slot ∈ S → ∀ c b, Run.Finishes S p (m.eval slot.node c b)) {finder : ContextId}
    {scope : Scope} {st : Store} (within : st.Within S) (found : st.Finds finder slot)
    : Run.FinishesAt S q (m.forceSlot slot finder) scope st := by
  unfold forceSlot
  refine (Finishes.get.finishes within).bind ?_
  intro current middle read _
  obtain ⟨rfl, rfl⟩ : st = current ∧ st = middle := by simpa using read
  split
  · exact Finishes.finishes within
  · refine (finishes_computeSlot deeper evaluated within found).bind ?_
    intro v after _ later
    have remembered : Run.Finishes S q (modify (·.remember slot v) : Run Unit) :=
      .step (fun _ => rfl) fun _ => rfl
    exact Finishes.finishes later

end Machine

end IncrementalLisp
