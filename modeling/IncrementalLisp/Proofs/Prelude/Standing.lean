import IncrementalLisp.Proofs.Levels.Tower
import IncrementalLisp.Proofs.Machine.Constants
import IncrementalLisp.Proofs.Node.Tree
import IncrementalLisp.Proofs.Simulation.History

/-! Stores over a library: all slots of all contexts are constants or function literals of the core
namespace, and a slot has its value, once it has one, from its node. Such a store stands while a run
defines nothing: the contexts stay, and what a symbol means does not change.
-/

namespace IncrementalLisp

open Filter

/-- Whether a node is a constant or a function literal. -/
def Node.isGiven (n : Node)
    : Bool :=
  match n.shape with
  | .constant _ => true
  | .lambda _ _ _ => true
  | _ => false

namespace Store

/-- (st.Catalogue defs) says what all slots of a store are: each symbol has one definition in all
contexts that define it, a constant or a function literal of the core, and with it the context
defines what the definition refers to.
-/
structure Catalogue (st : Store) (defs : List (Symbol × Node)) : Prop where
  coherent : st.Coherent
  known
    : ∀ {c : ContextId} {s : Symbol} {slot : Slot},
        (st.context c).slots[s]? = some slot → defs.lookup s = some slot.node.tree
  plain
    : ∀ {c : ContextId} {s : Symbol} {slot : Slot},
        (st.context c).slots[s]? = some slot → slot.bindings = [] ∧ slot.space = coreSpace
  given : ∀ {s : Symbol} {n : Node}, defs.lookup s = some n → n.isGiven
  space
    : ∀ {n : Node}, defs.lookup .currentSpace = some n → n.constant? = some (.string coreSpace)
  closed
    : ∀ {c : ContextId} {s : Symbol} {slot : Slot},
        (st.context c).slots[s]? = some slot → ∀ d ∈ slot.node.tree.dependencies,
          ((st.context c).slots[d.qualify coreSpace]?).isSome

/-- (st.Library defs) says besides that no slot is being computed. -/
structure Library (st : Store) (defs : List (Symbol × Node)) : Prop extends st.Catalogue defs where
  idle : st.forcing = []

/-- (base.Means size slot v) says that the value is that of the constant of a slot, or a function
made by the literal of the slot in a context that has the slot.
-/
def Means (base : Store) (_ : Nat) (slot : Slot) (v : Value)
    : Prop :=
  match slot.node.shape with
  | .constant w => v = w
  | .lambda params rest body =>
      ∃ c identity, base.Finds c slot
        ∧ v = .function (.closure (Bindings.closing [] params rest body c identity))
  | _ => True

instance (base : Store)
    : Lasting base.Means where
  widen := fun means _ => means

/-- (base.Standing st) says that a store has the contexts of another, in which the same slots are
being computed, and that the values it remembers are those that the slots mean there.
-/
structure Standing (base st : Store) : Prop where
  contexts : st.contexts = base.contexts
  forcing : st.forcing = base.forcing
  recalls : Recalls base.Means st

variable {base st : Store} {c : ContextId} {slot : Slot}

/-- A store that stands on another one has its contexts. -/
theorem Standing.context_eq (standing : base.Standing st) (c : ContextId)
    : st.context c = base.context c := by
  unfold context
  rw [standing.contexts]

/-- It finds the slots that the other one finds. -/
theorem Standing.finds (standing : base.Standing st) (found : base.Finds c slot)
    : st.Finds c slot := by
  unfold Finds
  rw [standing.context_eq]
  exact found

/-- What a run changes besides contexts and remembered values does not matter, as long as the same
slots are being computed.
-/
theorem Standing.quiet (standing : base.Standing st) {after : Store} (quiet : st.Quiet after)
    (contexts : after.contexts = st.contexts) (forcing : after.forcing = st.forcing)
    : base.Standing after :=
  ⟨contexts.trans standing.contexts, forcing.trans standing.forcing, quiet.2 _ standing.recalls⟩

/-- A slot is entered on both sides. -/
theorem Standing.enter (standing : base.Standing st) (id : SlotId)
    : (base.enter id).Standing (st.enter id) :=
  ⟨standing.contexts, congrArg (id :: ·) standing.forcing,
    (quiet_enter st id).2 base.Means standing.recalls⟩

/-- And it is left, whatever happened in between. -/
theorem Standing.leave {id : SlotId} (standing : (base.enter id).Standing st)
    : base.Standing (st.leave id) :=
  ⟨standing.contexts, forcing_leave standing.forcing,
    (quiet_leave st id).2 base.Means standing.recalls⟩

/-- Nor do the arrangements of tables matter that a run draws, by induction on their number. -/
theorem Standing.afterTables (standing : base.Standing st) (count : Nat)
    : base.Standing (st.afterTables count) := by
  induction count with
  | zero => exact standing
  | succ count ih => exact ih.quiet (Course.arrange (P := Store.Quiet)) rfl rfl

/-- The slot of a constant means the constant. -/
theorem Means.constant {size : Nat} {v w : Value} (means : base.Means size slot v)
    (constant : slot.node.shape = .constant w)
    : v = w := by
  unfold Means at means
  rw [constant] at means
  exact means

/-- A store stands after it remembered what a slot means. -/
theorem Standing.remember (standing : base.Standing st) (found : base.Finds c slot) {v : Value}
    (means : base.Means st.contexts.size slot v)
    : base.Standing (st.remember slot v) := by
  refine ⟨standing.contexts, standing.forcing, standing.recalls.remember (standing.finds found) ?_ means⟩
  exact fun _ constant => means.constant (Node.shape_of_constant? constant)

end Store

-----------------------------------------------------------------------------------------
-- How runs end
-----------------------------------------------------------------------------------------

section Runs

variable {α β : Type} {base : Store} {scope : Scope}

/-- What almost all machines come to, first with one run and then with the next. -/
theorem eventually_bind {x : Machine → Run α} {f : Machine → α → Run β} {a : α}
    {r : Except Halt β} {st middle after : Store}
    (came : ∀ᶠ level in atTop, (x (.ofLevels level)).outcome scope st = (.ok a, middle))
    (came' : ∀ᶠ level in atTop, (f (.ofLevels level) a).outcome scope middle = (r, after))
    : ∀ᶠ level in atTop,
        (x (.ofLevels level) >>= f (.ofLevels level)).outcome scope st = (r, after) :=
  (came.and came').mono fun _ both => (Run.outcome_bind_of_eq_ok both.1).trans both.2

/-- (ComesTo base x scope r) says that from each store that stands a run comes to one end on almost
all machines, and leaves a store that stands.
-/
def ComesTo (base : Store) (x : Machine → Run α) (scope : Scope) (r : Except Halt α)
    : Prop :=
  ∀ st, base.Standing st → ∃ after, base.Standing after
    ∧ ∀ᶠ level in atTop, (x (.ofLevels level)).outcome scope st = (r, after)

/-- (Yields base x scope P) says the same of a run that comes to a result with a property. -/
def Yields (base : Store) (x : Machine → Run α) (scope : Scope) (P : α → Prop)
    : Prop :=
  ∀ st, base.Standing st → ∃ a after, P a ∧ base.Standing after
    ∧ ∀ᶠ level in atTop, (x (.ofLevels level)).outcome scope st = (.ok a, after)

variable {P : α → Prop} {Q : β → Prop} {x : Machine → Run α} {f : Machine → α → Run β} {a : α}
  {r : Except Halt β} {r' : Except Halt α}

/-- A run that comes to a value yields it. -/
theorem ComesTo.yields (ends : ComesTo base x scope (.ok a)) (holds : P a)
    : Yields base x scope P := by
  intro st standing
  obtain ⟨after, later, came⟩ := ends st standing
  exact ⟨a, after, holds, later, came⟩

/-- A run yields a value of any weaker property. -/
theorem Yields.mono {P' : α → Prop} (yields : Yields base x scope P) (weaker : ∀ a, P a → P' a)
    : Yields base x scope P' := by
  intro st standing
  obtain ⟨a, after, holds, later, came⟩ := yields st standing
  exact ⟨a, after, weaker a holds, later, came⟩

/-- A returned value comes to itself. -/
theorem ComesTo.pure
    : ComesTo base (fun _ => Pure.pure a) scope (.ok a) :=
  fun st standing => ⟨st, standing, .of_forall fun _ => rfl⟩

/-- A failure comes to its error. -/
theorem ComesTo.fail {e : EvalError}
    : ComesTo base (fun _ => (Run.fail e : Run α)) scope (.error (.error e)) :=
  fun st standing => ⟨st, standing, .of_forall fun _ => rfl⟩

/-- A run that yields a value and then another one yield what the other one does. -/
theorem Yields.bind (first : Yields base x scope P)
    (rest : ∀ a, P a → Yields base (fun m => f m a) scope Q)
    : Yields base (fun m => x m >>= f m) scope Q := by
  intro st standing
  obtain ⟨a, middle, holds, between, came⟩ := first st standing
  obtain ⟨b, after, holds', later, came'⟩ := rest a holds middle between
  exact ⟨b, after, holds', later, eventually_bind came came'⟩

/-- A run that yields a value and then another one come to what the other one does. -/
theorem Yields.comesTo (first : Yields base x scope P)
    (rest : ∀ a, P a → ComesTo base (fun m => f m a) scope r)
    : ComesTo base (fun m => x m >>= f m) scope r := by
  intro st standing
  obtain ⟨a, middle, holds, between, came⟩ := first st standing
  obtain ⟨after, later, came'⟩ := rest a holds middle between
  exact ⟨after, later, eventually_bind came came'⟩

/-- A run that comes to a value and then another one come to what the other one does. -/
theorem ComesTo.bind (first : ComesTo base x scope (.ok a))
    (rest : ComesTo base (fun m => f m a) scope r)
    : ComesTo base (fun m => x m >>= f m) scope r :=
  (first.yields rfl).comesTo fun _ same => same ▸ rest

/-- A run that comes to a halt does so whatever follows. -/
theorem ComesTo.bind_error {h : Halt} (first : ComesTo base x scope (.error h))
    : ComesTo base (fun m => x m >>= f m) scope (.error h) := by
  intro st standing
  obtain ⟨after, later, came⟩ := first st standing
  refine ⟨after, later, came.mono fun level failed => ?_⟩
  rw [Run.outcome_bind, failed]

/-- (EndsAmong base x scope R) says the same of a run that comes to one of several ends, which may
depend on the store.
-/
def EndsAmong (base : Store) (x : Machine → Run α) (scope : Scope) (R : Except Halt α → Prop)
    : Prop :=
  ∀ st, base.Standing st → ∃ r after, R r ∧ base.Standing after
    ∧ ∀ᶠ level in atTop, (x (.ofLevels level)).outcome scope st = (r, after)

section EndsAmong

variable {R : Except Halt α → Prop} {S : Except Halt β → Prop}

/-- A run that comes to a result ends among any that include it. -/
theorem ComesTo.ends (comes : ComesTo base x scope r') (holds : R r')
    : EndsAmong base x scope R := by
  intro st standing
  obtain ⟨after, later, came⟩ := comes st standing
  exact ⟨r', after, holds, later, came⟩

/-- A run that yields a value ends among results that include all such values. -/
theorem Yields.ends (yields : Yields base x scope P) (holds : ∀ a, P a → R (.ok a))
    : EndsAmong base x scope R := by
  intro st standing
  obtain ⟨a, after, known, later, came⟩ := yields st standing
  exact ⟨.ok a, after, holds a known, later, came⟩

/-- A returned value ends among results that include it. -/
theorem EndsAmong.pure (holds : R (.ok a))
    : EndsAmong base (fun _ => Pure.pure a) scope R :=
  ComesTo.pure.ends holds

/-- A failure ends among results that include it. -/
theorem EndsAmong.fail {e : EvalError} (holds : R (.error (.error e)))
    : EndsAmong base (fun _ => Run.fail e) scope R :=
  ComesTo.fail.ends holds

/-- A run ends among any weaker results. -/
theorem EndsAmong.mono {R' : Except Halt α → Prop} (ends : EndsAmong base x scope R)
    (weaker : ∀ r, R r → R' r)
    : EndsAmong base x scope R' := by
  intro st standing
  obtain ⟨r, after, holds, later, came⟩ := ends st standing
  exact ⟨r, after, weaker r holds, later, came⟩

/-- A sequence ends as its second part does, or with the error of its first. -/
theorem EndsAmong.bind (first : EndsAmong base x scope R)
    (rest : ∀ a, R (.ok a) → EndsAmong base (fun m => f m a) scope S)
    (failed : ∀ h, R (.error h) → S (.error h))
    : EndsAmong base (fun m => x m >>= f m) scope S := by
  intro st standing
  obtain ⟨r, middle, holds, between, came⟩ := first st standing
  cases r with
  | ok a =>
      obtain ⟨r, after, holds, later, came'⟩ := rest a holds middle between
      exact ⟨r, after, holds, later, eventually_bind came came'⟩
  | error h =>
      refine ⟨.error h, middle, failed h holds, between, came.mono fun level ended => ?_⟩
      rw [Run.outcome_bind, ended]

/-- A run that yields a value and then another one end among what the other one does. -/
theorem Yields.bindEnds (first : Yields base x scope P)
    (rest : ∀ a, P a → EndsAmong base (fun m => f m a) scope S)
    : EndsAmong base (fun m => x m >>= f m) scope S := by
  have ends : EndsAmong base x scope fun r => ∃ a, r = .ok a ∧ P a :=
    first.ends fun a holds => ⟨a, rfl, holds⟩
  refine ends.bind ?_ ?_
  · rintro _ ⟨_, ⟨⟩, holds⟩
    exact rest _ holds
  · rintro _ ⟨_, ⟨⟩, _⟩

/-- A run while values are at hand ends as it does in the scope that holds them. -/
theorem EndsAmong.holding {values : List Value} (ends : EndsAmong base x (scope.holding values) R)
    : EndsAmong base (fun m => Run.holding values (x m)) scope R :=
  ends

/-- A run on one level more ends as its step does on the level below. -/
theorem EndsAmong.succ {y : Machine → Run α} (inner : Scope)
    (step : ∀ level st, (y (.ofLevels (level + 1))).outcome scope st
      = (x (.ofLevels level)).outcome inner st)
    (ends : EndsAmong base x inner R)
    : EndsAmong base y scope R := by
  intro st standing
  obtain ⟨r, after, holds, later, came⟩ := ends st standing
  refine ⟨r, after, holds, later, ?_⟩
  exact Machine.eventually_succ (fun level same => (step level st).trans same) came

end EndsAmong

/-- So does one that comes to one end. -/
theorem ComesTo.holding {values : List Value} (comes : ComesTo base x (scope.holding values) r')
    : ComesTo base (fun m => Run.holding values (x m)) scope r' :=
  comes

/-- Runs of machines with one level more. -/
theorem ComesTo.succ {y : Machine → Run α} (inner : Scope) {r : Except Halt α}
    (step : ∀ level st, (y (.ofLevels (level + 1))).outcome scope st
      = (x (.ofLevels level)).outcome inner st)
    (ends : ComesTo base x inner r)
    : ComesTo base y scope r := by
  intro st standing
  obtain ⟨after, later, came⟩ := ends st standing
  exact ⟨after, later, Machine.eventually_succ (fun level same => (step level st).trans same) came⟩

/-- A run on one level more yields what its step does on the level below. -/
theorem Yields.succ {y : Machine → Run α} (inner : Scope)
    (step : ∀ level st, (y (.ofLevels (level + 1))).outcome scope st
      = (x (.ofLevels level)).outcome inner st)
    (yields : Yields base x inner P)
    : Yields base y scope P := by
  intro st standing
  obtain ⟨a, after, holds, later, came⟩ := yields st standing
  refine ⟨a, after, holds, later, ?_⟩
  exact Machine.eventually_succ (fun level same => (step level st).trans same) came

/-- A run inside a slot yields what it does there, if the slot is not being computed yet. -/
theorem Yields.insideSlot {slot : Slot} (fresh : slot.id ∉ base.forcing)
    (inner : Yields (base.enter slot.id) x scope P)
    : Yields base (fun m => Run.insideSlot slot (x m)) scope P := by
  intro st standing
  obtain ⟨a, after, holds, later, came⟩ := inner _ (standing.enter slot.id)
  refine ⟨a, after.leave slot.id, holds, later.leave, came.mono fun level same => ?_⟩
  rw [Run.outcome_insideSlot_eq_ok, standing.forcing]
  exact ⟨fresh, after, same, rfl⟩

/-- To draw an arrangement yields some arrangement, and stores keep standing. -/
theorem yields_arrangementIf (needed : Bool)
    : Yields base (fun _ => Run.arrangementIf needed) scope fun _ => True := by
  intro st standing
  obtain ⟨a, drawn⟩ := Run.outcome_arrangementIf st needed
  refine ⟨a, st.afterTables (if needed then 1 else 0), trivial, standing.quiet ?_ rfl rfl,
    .of_forall fun _ => drawn scope⟩
  exact Run.Follows.of_eq (drawn scope)

/-- So does taking a new number. -/
theorem yields_newIdentity
    : Yields base (fun _ => Run.newIdentity) scope fun _ => True :=
  fun st standing => ⟨st.nextIdentity, { st with nextIdentity := st.nextIdentity + 1 }, trivial,
    standing.quiet (Course.identity (P := Store.Quiet)) rfl rfl, .of_forall fun _ => rfl⟩

/-- A function literal makes a function, and only a new identity besides. -/
theorem yields_compute_lambda {n : Node} {params : List Symbol} {rest : Option Symbol} {body : Node}
    (literal : n.shape = .lambda params rest body) (c : ContextId) (b : Bindings)
    : Yields base (fun m => m.compute n c b) scope fun v =>
        ∃ identity, v = .function (.closure (b.closing params rest body c identity)) := by
  intro st standing
  have made (level : Nat) := Machine.outcome_eval_lambda level literal c b scope st
  refine ⟨_, { st with nextIdentity := st.nextIdentity + 1 }, ⟨st.nextIdentity, rfl⟩,
    standing.quiet (Course.identity (P := Store.Quiet)) rfl rfl, ?_⟩
  refine Machine.eventually_succ (P := fun _ => True) (fun level _ => ?_)
    (.of_forall fun _ => trivial)
  unfold Machine.compute
  exact Run.outcome_bind_of_eq_ok (made level)

end Runs

-----------------------------------------------------------------------------------------
-- Look-ups
-----------------------------------------------------------------------------------------

namespace Store.Catalogue

variable {base : Store} {defs : List (Symbol × Node)} {c : ContextId} {s : Symbol} {slot : Slot}
  {scope : Scope} (catalogue : base.Catalogue defs)

/-- The value of a slot that is known is remembered; any other is computed first. -/
theorem yields_force {P : Value → Prop} (found : base.Finds c slot)
    (means : ∀ size v, base.Means size slot v → P v)
    (computes : Yields base (fun m => m.computeSlot slot c) (scope.entering c)
      (base.Means base.contexts.size slot))
    : Yields base (fun m => m.force slot c) scope P := by
  refine .succ (x := fun m => m.forceSlot slot c) (scope.entering c) (fun _ _ => rfl)
    fun st standing => ?_
  unfold Machine.forceSlot
  cases known : st.value? slot with
  | some v =>
      have holds := means _ _ (standing.recalls.known (standing.finds found) known)
      refine ⟨v, st, holds, standing, .of_forall fun level => ?_⟩
      rw [Run.outcome_bind_of_eq_ok (Run.outcome_get ..), known]
      rfl
  | none =>
      obtain ⟨v, after, holds, later, came⟩ := computes st standing
      have size : after.contexts.size = base.contexts.size := by rw [later.contexts]
      refine ⟨v, after.remember slot v, means _ _ holds, ?_, came.mono fun level computed => ?_⟩
      · exact later.remember found (size ▸ holds)
      · rw [Run.outcome_bind_of_eq_ok (Run.outcome_get ..), known]
        exact Run.outcome_bind_of_eq_ok computed

/-- To force a slot of a constant comes to the constant, remembered or not. -/
theorem comesTo_force_constant {w : Value} (found : base.Finds c slot)
    (constant : slot.node.shape = .constant w)
    : ComesTo base (fun m => m.force slot c) scope (.ok w) := by
  have given : slot.node.constant? = some w := by
    unfold Node.constant?
    rw [constant]
  have meant : base.Means base.contexts.size slot w := by
    unfold Means
    rw [constant]
  have computes : ComesTo base (fun m => m.computeSlot slot c) (scope.entering c) (.ok w) := by
    unfold Machine.computeSlot
    simp only [given]
    exact .pure
  have forced : Yields base (fun m => m.force slot c) scope (· = w) :=
    yields_force found (fun _ v means => means.constant constant) (computes.yields meant)
  intro st standing
  obtain ⟨_, after, rfl, later, came⟩ := forced st standing
  exact ⟨after, later, came⟩

include catalogue

/-- A store stays a catalogue when a slot is entered. -/
theorem enter (id : SlotId)
    : (base.enter id).Catalogue defs :=
  { catalogue with coherent := Leads.coherent (.single (.enter ..)) catalogue.coherent }

/-- A symbol that is given as a constant has slots of that shape, since trees keep constants. -/
theorem shape_of_constant {w : Value} (stored : (base.context c).slots[s]? = some slot)
    (constant : defs.lookup s = some (.constant w))
    : slot.node.shape = .constant w := by
  have tree : slot.node.tree = .constant w := by
    have known := catalogue.known stored
    rw [constant] at known
    exact (Option.some.inj known).symm
  have shapes := slot.node.shape_tree
  rw [tree] at shapes
  cases shape : slot.node.shape <;> rw [shape] at shapes <;> cases shapes
  rfl

/-- A slot of the catalogue is a constant or a function, by how it is given. -/
theorem constant_or_lambda (stored : (base.context c).slots[s]? = some slot)
    : (∃ w, slot.node.shape = .constant w)
      ∨ ∃ params rest body, slot.node.shape = .lambda params rest body := by
  have given := catalogue.given (catalogue.known stored)
  unfold Node.isGiven at given
  rw [Node.shape_tree] at given
  cases shape : slot.node.shape with
  | constant w => exact Or.inl ⟨w, rfl⟩
  | lambda params rest body => exact Or.inr ⟨params, rest, body, rfl⟩
  | _ =>
      rw [shape] at given
      cases given

/-- Wherever the definitions of a catalogue are used, the namespace is the core. -/
theorem comesTo_currentSpace (c : ContextId)
    : ComesTo base (fun m => m.currentSpace c) scope (.ok coreSpace) := by
  intro st standing
  unfold Machine.currentSpace
  simp only [Run.outcome_bind, Run.outcome_context, standing.context_eq]
  cases stored : (base.context c).slots[Symbol.currentSpace]? with
  | none => exact ⟨st, standing, .of_forall fun _ => rfl⟩
  | some slot =>
      have constant := catalogue.space (catalogue.known stored)
      rw [Node.constant?_tree] at constant
      have shape := Node.shape_of_constant? constant
      have forces : ComesTo base (fun m => m.force slot c) scope _ :=
        comesTo_force_constant ⟨_, stored⟩ shape
      obtain ⟨after, later, came⟩ := forces st standing
      refine ⟨after, later, came.mono fun level forced => ?_⟩
      dsimp only
      rw [Run.outcome_bind, Run.outcome_attempt, forced]
      rfl

/-- To look a symbol up comes to the slot of its name in the core, whichever way it is found. -/
theorem comesTo_slot? (c : ContextId) (s : Symbol)
    : ComesTo base (fun m => m.slot? c s) scope
        (.ok (base.context c).slots[s.qualify coreSpace]?) := by
  unfold Machine.slot?
  by_cases qualified : s.isQualified
  · simp only [qualified, if_true, Symbol.qualify_of_isQualified coreSpace qualified]
    intro st standing
    refine ⟨st, standing, .of_forall fun level => ?_⟩
    simp only [Run.outcome_bind, Run.outcome_context, standing.context_eq]
    rfl
  · simp only [qualified, if_false, Bool.false_eq_true]
    refine (catalogue.comesTo_currentSpace c).bind fun st standing => ?_
    refine ⟨st, standing, .of_forall fun level => ?_⟩
    simp only [Run.outcome_bind, Run.outcome_context, standing.context_eq, Context.slotIn?,
      Option.or_self]
    rfl

omit catalogue in
/-- To ask whether a context lives yields an answer, and stores keep standing whatever is collected.
-/
theorem yields_isLiving (owner : ContextId)
    : Yields base (fun _ => Run.isLiving owner) scope fun _ => True := by
  intro st standing
  obtain ⟨living, after, ran, contexts, forcing⟩
      : ∃ living after, (Run.isLiving owner).outcome scope st = (.ok living, after)
          ∧ after.contexts = st.contexts ∧ after.forcing = st.forcing := by
    unfold Run.isLiving
    simp only [Run.outcome_bind, Run.outcome_read, Run.outcome_get]
    by_cases held : st.isHeld scope.held owner
    · exact ⟨true, st, by rw [if_pos held]; rfl, rfl, rfl⟩
    · exact ⟨_, st.collected scope.held, by rw [if_neg held]; rfl, rfl, rfl⟩
  have quiet : st.Quiet after := Run.Follows.of_eq ran
  exact ⟨living, after, trivial, standing.quiet quiet contexts forcing, .of_forall fun _ => ran⟩

/-- The context in which a slot is computed has the slot. -/
theorem yields_contextOf (stored : (base.context c).slots[s]? = some slot)
    : Yields base (fun m => m.contextOf slot c) scope (base.Finds · slot) := by
  have there (living : Bool) : base.Finds (if living then slot.owner else c) slot := by
    cases living
    · exact ⟨s, stored⟩
    · exact ⟨s, catalogue.coherent.stored stored⟩
  unfold Machine.contextOf
  refine (yields_isLiving slot.owner).bind fun living _ => ?_
  refine ((catalogue.comesTo_currentSpace _).bind ?_).yields (there living)
  simp only [(catalogue.plain stored).2, beq_self_eq_true, if_true]
  exact .pure

/-- The value of a slot is what the slot means, unless it is being computed already. -/
theorem yields_force_slot (stored : (base.context c).slots[s]? = some slot)
    (fresh : slot.id ∉ base.forcing)
    : Yields base (fun m => m.force slot c) scope fun v => ∀ size, base.Means size slot v := by
  rcases catalogue.constant_or_lambda stored with ⟨w, shape⟩ | ⟨params, rest, body, shape⟩
  · refine (comesTo_force_constant ⟨s, stored⟩ shape).yields fun size => ?_
    unfold Means
    rw [shape]
  · have constant : slot.node.constant? = none := by
      unfold Node.constant?
      rw [shape]
    refine yields_force ⟨s, stored⟩ (fun _ _ means _ => means) ?_
    unfold Machine.computeSlot
    simp only [constant]
    refine .insideSlot fresh ?_
    refine ((catalogue.enter slot.id).yields_contextOf stored).bind fun d there => ?_
    rw [(catalogue.plain stored).1]
    refine (yields_compute_lambda shape d []).mono fun v made => ?_
    obtain ⟨identity, rfl⟩ := made
    unfold Means
    rw [shape]
    exact ⟨d, identity, there, rfl⟩

end Store.Catalogue

namespace Store.Library

variable {base : Store} {defs : List (Symbol × Node)} {c : ContextId} {slot : Slot} {scope : Scope}
  (library : base.Library defs)
include library

/-- In a library no slot is being computed. -/
theorem not_mem_forcing (id : SlotId)
    : id ∉ base.forcing := by
  rw [library.idle]
  exact List.not_mem_nil

/-- The value of a defined symbol is what its slot means. -/
theorem yields_valueOf {t : Symbol}
    (stored : (base.context c).slots[t.qualify coreSpace]? = some slot)
    : Yields base (fun m => m.valueOf c t) scope fun v => ∀ size, base.Means size slot v := by
  unfold Machine.valueOf
  refine ((library.comesTo_slot? c t).yields (P := (· = some slot)) stored).bind ?_
  rintro _ rfl
  exact library.yields_force_slot stored (library.not_mem_forcing _)

/-- The expander that a symbol is bound to is the constant that it is defined as. -/
theorem comesTo_expanderBound? (c : ContextId) (t : Symbol)
    : ComesTo base (fun m => m.expanderBound? c t) scope
        (.ok (match (base.context c).slots[t.qualify coreSpace]? with
          | none => none
          | some slot =>
              match slot.node.tree.constant? with
              | some (.expander e) => some e
              | _ => none)) := by
  unfold Machine.expanderBound?
  refine (library.comesTo_slot? c t).bind ?_
  cases stored : (base.context c).slots[t.qualify coreSpace]? with
  | none => exact .pure
  | some slot =>
      have fresh := library.not_mem_forcing slot.id
      refine (library.yields_force_slot stored fresh).comesTo fun v means => ?_
      have meant := means 0
      dsimp only
      rw [Node.constant?_tree]
      unfold Node.constant?
      unfold Means at meant
      rcases library.constant_or_lambda stored with ⟨w, shape⟩ | ⟨params, rest, body, shape⟩
      · simp only [shape] at meant ⊢
        obtain rfl := meant
        cases v <;> exact .pure
      · simp only [shape] at meant ⊢
        obtain ⟨d, identity, -, rfl⟩ := meant
        exact .pure

end Store.Library

end IncrementalLisp
