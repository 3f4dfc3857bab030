import IncrementalLisp.Proofs.Forcing.Reading
import IncrementalLisp.Proofs.Simulation.Tower
import IncrementalLisp.Proofs.Store.Scratch

/-! Circular definitions. Where the definition of each of some symbols begins by looking up another
of them, none of them ever gets a value: asked for its value, each fails with the error of circular
definitions.
-/

namespace IncrementalLisp

open Store Run

-----------------------------------------------------------------------------------------
-- What an evaluation begins with
-----------------------------------------------------------------------------------------

/-- The part of a shape that is evaluated first, under the same bindings. -/
def Shape.first? : Shape → Option Node
  | .apply f _ => some f
  | .sequence body => body.head?
  | .conditional test _ _ => some test
  | .binding [] body => some body
  | .binding ((_, expr) :: _) _ => some expr
  | .vector items => items.head?
  | .list items => items.head?
  | .hashMap items => items.head?
  | .set items => items.head?
  | .invoke target _ _ => some target
  | .invokeStatic _ _ args => args.head?
  | .cast _ expr => some expr
  | .instanceOf type _ => some type
  | _ => none

/-- (n.Begins s) says that the evaluation of a node begins with the look-up of a symbol. -/
inductive Node.Begins (s : Symbol) : Node → Prop where
  | lookup {n : Node} (shape : n.shape = .lookup s)
      : n.Begins s
  | part {n part : Node} (first : n.shape.first? = some part) (begins : part.Begins s)
      : n.Begins s

/-- What the first of several nodes depends on, they all together depend on. -/
theorem mem_dependenciesOfAll_of_head? {nodes : List Node} {part : Node} {s : Symbol}
    (first : nodes.head? = some part) (depends : s ∈ part.dependencies)
    : s ∈ dependenciesOfAll nodes := by
  cases nodes with
  | nil => cases first
  | cons node rest =>
      obtain rfl := Option.some.inj first
      rw [dependenciesOfAll]
      exact Std.ExtTreeSet.mem_union_iff.mpr (.inl depends)

/-- What the first part of a shape depends on, the shape depends on, by cases on the shape. -/
theorem Shape.mem_dependencies_of_first? {shape : Shape} {part : Node} {s : Symbol}
    (first : shape.first? = some part) (depends : s ∈ part.dependencies)
    : s ∈ shape.dependencies := by
  cases shape with
  | constant | lookup | define | lambda | expander | quote => cases first
  | sequence | vector | list | hashMap | set | invokeStatic =>
      rw [dependencies]
      exact mem_dependenciesOfAll_of_head? first depends
  | apply | invoke | cast | instanceOf | conditional =>
      obtain rfl := Option.some.inj first
      simp only [dependencies, Std.ExtTreeSet.mem_union_iff]
      tauto
  | binding pairs body =>
      rw [dependencies]
      refine Std.ExtTreeSet.mem_union_iff.mpr ?_
      cases pairs with
      | nil =>
          obtain rfl := Option.some.inj first
          exact .inr (SymbolSet.mem_without.mpr ⟨depends, List.not_mem_nil⟩)
      | cons pair rest =>
          obtain rfl := Option.some.inj first
          rw [dependenciesOfPairs]
          exact .inl (Std.ExtTreeSet.mem_union_iff.mpr (.inl depends))

/-- A node depends on the symbol that it begins with, by induction on the first parts down to it. -/
theorem Node.Begins.mem_dependencies {s : Symbol} {n : Node} (begins : n.Begins s)
    : s ∈ n.dependencies := by
  induction begins with
  | @lookup n shape =>
      obtain ⟨_, recorded, _, _⟩ := n
      subst shape
      rw [Node.dependencies, Shape.dependencies]
      simp
  | @part n part first _ ih =>
      obtain ⟨shape, recorded, _, _⟩ := n
      rw [Node.dependencies]
      exact Std.ExtTreeSet.mem_union_iff.mpr (.inl (Shape.mem_dependencies_of_first? first ih))

/-- A node that begins with a symbol is no constant, by the shapes that have a first part. -/
theorem Node.Begins.constant? {s : Symbol} {n : Node} (begins : n.Begins s)
    : n.constant? = none := by
  unfold Node.constant?
  cases begins with
  | lookup shape => rw [shape]
  | part first =>
      split
      · rename_i shape
        rw [shape] at first
        cases first
      · rfl

namespace Machine

variable {m : Machine} {c : ContextId}

/-- (x.BeginsWith P y) says that a run begins with another one while some values are at hand, and
goes on by steps that a course allows.
-/
def BeginsWith (P : Store → Store → Prop) (x y : Run (Value × ContextId))
    : Prop :=
  ∃ (values : List Value) (rest : Value × ContextId → Run (Value × ContextId)),
    x = Run.holding values y >>= rest ∧ ∀ a, Run.Follows P (rest a)

/-- A run that another one follows begins with it, with nothing else at hand. -/
theorem beginsWith_bind {P : Store → Store → Prop} (x : Run (Value × ContextId))
    (rest : Value × ContextId → Run (Value × ContextId)) (follows : ∀ a, Run.Follows P (rest a))
    : BeginsWith P (x >>= rest) x :=
  ⟨[], rest, by rw [Run.holding_nil], follows⟩

/-- The evaluation of a node begins with that of the part that is evaluated first. -/
theorem evalNode_of_first {P : Store → Store → Prop} [Course P] [m.Follows P] {n part : Node}
    (first : n.shape.first? = some part) (b : Bindings)
    : BeginsWith P (m.evalNode n c b) (m.eval part c b) := by
  have onward {f : Value → Run (Value × ContextId)} (follows : ∀ v, Run.Follows P (f v))
      : BeginsWith P (m.compute part c b >>= f) (m.eval part c b) := by
    unfold compute
    rw [bind_assoc]
    refine beginsWith_bind _ _ fun a => ?_
    rw [pure_bind]
    exact follows a.1
  have all {nodes : List Node} (head : nodes.head? = some part)
      {f : List Value → Run (Value × ContextId)} (follows : ∀ vs, Run.Follows P (f vs))
      : BeginsWith P (m.computeAll nodes c b >>= f) (m.eval part c b) := by
    cases nodes with
    | nil => cases head
    | cons node rest =>
        obtain rfl := Option.some.inj head
        have others : Run.Follows P (m.computeAll rest c b) := inferInstance
        unfold computeAll at others ⊢
        rw [Run.gather, bind_assoc]
        exact onward fun v => inferInstance
  unfold evalNode
  generalize n.shape = shape at first
  cases shape with
  | constant | lookup | define | lambda | expander | quote => cases first
  | sequence body =>
      cases body with
      | nil => cases first
      | cons node rest =>
          obtain rfl := Option.some.inj first
          exact ⟨[.nil], _, rfl, fun _ => inferInstance⟩
  | vector | list | set | invokeStatic => exact all first fun _ => inferInstance
  | hashMap =>
      refine all first fun vs => .andThen fun a => ?_
      split <;> infer_instance
  | apply | invoke | cast =>
      obtain rfl := Option.some.inj first
      exact onward fun _ => inferInstance
  | instanceOf =>
      obtain rfl := Option.some.inj first
      refine onward fun v => ?_
      split <;> infer_instance
  | conditional =>
      obtain rfl := Option.some.inj first
      exact beginsWith_bind _ _ fun _ => inferInstance
  | binding pairs body =>
      cases pairs with
      | nil =>
          obtain rfl := Option.some.inj first
          refine ⟨[], pure, ?_, fun _ => inferInstance⟩
          rw [bind_pure, Run.holding_nil]
          rfl
      | cons pair rest =>
          obtain rfl := Option.some.inj first
          change BeginsWith P ((Run.holding b.values (m.eval pair.2 c b) >>= _) >>= _) _
          rw [bind_assoc]
          exact ⟨b.values, _, rfl, fun _ => inferInstance⟩
end Machine

-----------------------------------------------------------------------------------------
-- Runs without errors
-----------------------------------------------------------------------------------------

/-- A run that fails only for want of fuel. -/
def Run.Unfailing {α : Type} (x : Run α)
    : Prop :=
  ∀ (scope : Scope) (st after : Store) (h : Halt),
    x.outcome scope st = (.error h, after) → h = .outOfFuel

namespace Run.Unfailing

variable {α β : Type}

/-- A run that only returns a value does not fail. -/
theorem pure (a : α)
    : (pure a : Run α).Unfailing :=
  nofun

/-- One unfailing run after another is unfailing, by cases on how the first one ended. -/
theorem bind {x : Run α} {f : α → Run β} (first : x.Unfailing) (second : ∀ a, (f a).Unfailing)
    : (x >>= f).Unfailing := by
  intro scope st after h failed
  rw [outcome_bind] at failed
  rcases step : x.outcome scope st with ⟨result, middle⟩
  rw [step] at failed
  cases result with
  | ok a => exact second a _ _ _ _ failed
  | error h =>
      cases failed
      exact first _ _ _ _ step

/-- A run whose errors are its result is unfailing, whatever is attempted. -/
theorem attempt (x : Run α)
    : (attempt x).Unfailing := by
  intro scope st after h failed
  rw [outcome_attempt] at failed
  rcases step : x.outcome scope st with ⟨(e | _) | a, middle⟩ <;> rw [step] at failed <;> cases failed
  rfl

end Run.Unfailing

namespace Machine

variable (m : Machine) (c : ContextId)

/-- To ask for a context does not fail. -/
theorem unfailing_context
    : (Run.context c).Unfailing :=
  nofun

/-- To ask for the current namespace does not fail, since it is attempted. -/
theorem unfailing_currentSpace
    : (m.currentSpace c).Unfailing := by
  refine (unfailing_context c).bind fun found => ?_
  split
  · exact .pure _
  · refine (Run.Unfailing.attempt _).bind fun result => ?_
    split <;> exact .pure _

/-- To look a slot up does not fail, by the ways to find the namespace. -/
theorem unfailing_slot? (s : Symbol)
    : (m.slot? c s).Unfailing := by
  unfold slot?
  split
  · exact (unfailing_context c).bind fun _ => .pure _
  · exact (m.unfailing_currentSpace c).bind fun _ => (unfailing_context c).bind fun _ => .pure _

/-- To choose a slot's context does not fail, since neither of its questions does. -/
theorem unfailing_contextOf (slot : Slot)
    : (m.contextOf slot c).Unfailing := by
  have living : (Run.isLiving slot.owner).Unfailing := by
    have asked : (read : Run Scope).Unfailing := nofun
    have found : (get : Run Store).Unfailing := nofun
    refine asked.bind fun scope => found.bind fun st => ?_
    split
    · exact .pure _
    · have collected : (modify (·.collected scope.held) : Run Unit).Unfailing := nofun
      exact collected.bind fun _ => found.bind fun _ => .pure _
  refine living.bind fun alive => ?_
  refine (m.unfailing_currentSpace _).bind fun space => ?_
  split
  · exact .pure _
  · exact (m.unfailing_currentSpace _).bind fun _ => nofun

end Machine

-----------------------------------------------------------------------------------------
-- Circles of definitions
-----------------------------------------------------------------------------------------

namespace Store

/-- (st.Circle c Z) says that the definition of each of some symbols in a context begins by looking
up one of them, and that none of them depends on the symbol of namespaces.
-/
structure Circle (st : Store) (c : ContextId) (Z : Set Symbol) : Prop where
  links
    : ∀ k ∈ Z, ∃ slot s other,
        (st.context c).slots[k]? = some slot
          ∧ slot.node.Begins s ∧ slot.bindings.lexical? s = none
          ∧ (st.context c).slotIn? slot.space s = some other ∧ other.symbol ∈ Z
  apart : ∀ k ∈ Z, ¬(st.context c).Reaches k Symbol.currentSpace

variable {st : Store} {c o p : ContextId} {k s e : Symbol} {slot : Slot} {Z : Set Symbol}

/-- A stored slot uses each spelling of the symbol that its node begins with, by coherence. -/
theorem Coherent.uses_of_begins (coherent : st.Coherent)
    (stored : (st.context c).slots[k]? = some slot) (begins : slot.node.Begins s)
    (spelled : s.Spelled slot.space e)
    : (st.context c).Uses k e := by
  refine ⟨slot, stored, ?_⟩
  rw [coherent.spelled stored]
  exact SymbolSet.mem_spellings.mpr ⟨s, begins.mem_dependencies, spelled⟩

/-- Contexts that have the same slot agree on all that it reaches. Witness: they agree with its
owner.
-/
theorem Coherent.agree_of_reaches (coherent : st.Coherent)
    (here : (st.context c).slots[k]? = some slot) (there : (st.context o).slots[k]? = some slot)
    (path : (st.context c).Reaches k e)
    : (st.context o).Reaches k e ∧ (st.context o).slots[e]? = (st.context c).slots[e]? := by
  have same {e : Symbol} (one : (st.context c).Reaches k e) (two : (st.context o).Reaches k e)
      : (st.context o).slots[e]? = (st.context c).slots[e]? := by
    rw [← coherent.agrees there two, coherent.agrees here one]
  induction path with
  | single edge =>
      have first := edge
      obtain ⟨found, stored, depends⟩ := edge
      obtain rfl := Option.some.inj (stored.symm.trans here)
      have reached : (st.context o).Reaches k _ := .single ⟨found, there, depends⟩
      exact ⟨reached, same (.single first) reached⟩
  | tail path edge ih =>
      have last := edge
      obtain ⟨found, stored, depends⟩ := edge
      obtain ⟨before, agreed⟩ := ih
      have reached : (st.context o).Reaches k _ :=
        before.tail ⟨found, agreed.trans stored, depends⟩
      exact ⟨reached, same (path.tail last) reached⟩

/-- In a context that a slot is computed in, everything is as before that the slot reaches. -/
theorem Coherent.agree_of_switches (coherent : st.Coherent)
    (here : (st.context c).slots[k]? = some slot) (there : (st.context o).slots[k]? = some slot)
    (switches : st.Switches o p slot.space)
    (apart : ¬(st.context c).Reaches k Symbol.currentSpace) (path : (st.context c).Reaches k e)
    : (st.context p).slots[e]? = (st.context c).slots[e]? := by
  obtain ⟨reached, agreed⟩ := coherent.agree_of_reaches here there path
  rw [← agreed]
  have away : ¬(st.context o).Reaches k Symbol.currentSpace := fun back =>
    apart (coherent.agree_of_reaches there here back).1
  rcases switches with ⟨rfl, _⟩ | ⟨before, _, _, _, made⟩
  · rfl
  · have other : e ≠ Symbol.currentSpace.qualify before := by
      rw [Symbol.qualify_of_isQualified before rfl]
      rintro rfl
      exact away reached
    rw [made]
    refine ((coherent.indexed o).getElem?_define_of_ne p _ [] other).2 fun onward => ?_
    rw [Symbol.qualify_of_isQualified before rfl] at onward
    exact away (reached.trans onward)

/-- A slot is found under a spelling of the symbol that was looked up: its own namespace or the
core.
-/
theorem spelled_of_slotIn? (coherent : st.Coherent) {space : String} {other : Slot}
    (found : (st.context c).slotIn? space s = some other)
    : s.Spelled space other.symbol := by
  unfold Context.slotIn? at found
  rcases Option.or_eq_some_iff.mp found with near | ⟨_, core⟩
  · exact .inr (.inl ((coherent.indexed c).ownSymbol near))
  · exact .inr (.inr ((coherent.indexed c).ownSymbol core))

/-- A slot that is found is stored under its own symbol, by coherence. -/
theorem stored_of_slotIn? (coherent : st.Coherent) {space : String} {other : Slot}
    (found : (st.context c).slotIn? space s = some other)
    : (st.context c).slots[other.symbol]? = some other := by
  unfold Context.slotIn? at found
  rcases Option.or_eq_some_iff.mp found with near | ⟨_, core⟩
  · rw [(coherent.indexed c).ownSymbol near, near]
  · rw [(coherent.indexed c).ownSymbol core, core]

/-- Contexts with the same slots under every spelling of a symbol find the same slot for it. -/
theorem slotIn?_congr {space : String}
    (same
      : ∀ {e : Symbol}, s.Spelled space e → (st.context p).slots[e]? = (st.context c).slots[e]?)
    : (st.context p).slotIn? space s = (st.context c).slotIn? space s := by
  unfold Context.slotIn?
  rw [same (.inr (.inl rfl)), same (.inr (.inr rfl))]

/-- Some symbols of a circle, with all of the circle that they reach, form a circle in every context
that has the same slots on the way.
-/
theorem Circle.transfer (circle : st.Circle c Z) (coherent : st.Coherent) {W : Set Symbol}
    (within : W ⊆ Z)
    (closed : ∀ {k e : Symbol}, k ∈ W → (st.context c).Reaches k e → e ∈ Z → e ∈ W)
    (same
      : ∀ {k e : Symbol}, k ∈ W → Relation.ReflTransGen (st.context c).Uses k e
        → (st.context p).slots[e]? = (st.context c).slots[e]?)
    : st.Circle p W := by
  constructor
  · intro k listed
    obtain ⟨slot, s, other, stored, begins, unbound, meant, next⟩ := circle.links k (within listed)
    have uses {e : Symbol} (spelled : s.Spelled slot.space e) : (st.context c).Uses k e :=
      coherent.uses_of_begins stored begins spelled
    refine ⟨slot, s, other, (same listed .refl).trans stored, begins, unbound, ?_, ?_⟩
    · exact (slotIn?_congr fun spelled => same listed (.single (uses spelled))).trans meant
    · exact closed listed (.single (uses (spelled_of_slotIn? coherent meant))) next
  · intro k listed onward
    -- A path in the other context is one in the first, as the slots on it are the same.
    have back {e : Symbol} (onward : (st.context p).Reaches k e) : (st.context c).Reaches k e := by
      induction onward with
      | single edge =>
          obtain ⟨slot, stored, depends⟩ := edge
          exact .single ⟨slot, (same listed .refl).symm.trans stored, depends⟩
      | tail _ edge ih =>
          obtain ⟨slot, stored, depends⟩ := edge
          exact ih.tail ⟨slot, (same listed ih.to_reflTransGen).symm.trans stored, depends⟩
    exact circle.apart k (within listed) (back onward)

end Store

end IncrementalLisp
