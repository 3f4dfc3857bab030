import IncrementalLisp.Proofs.Machine.Activities

/-! Comparisons of runs. Two machines are compared by what their activities come to, in each scope
and store. Whatever a machine does with its activities compares as they do, for every comparison
that holds between a run and itself, as long as the run does nothing but plain steps, and that goes
through sequences and attempts.
-/

namespace IncrementalLisp

/-- (st.Plainly after) says that every course goes from the one store to the other: there are only
steps in between that all courses allow.
-/
def Store.Plainly (st after : Store)
    : Prop :=
  ∀ P : Store → Store → Prop, Course P → P st after

instance course_plainly : Course Store.Plainly where
  refl := fun _ course => course.refl
  trans := fun first second P course => course.trans (first P course) (second P course)
  define := fun _ course => course.define
  identity := fun _ course => course.identity
  arrange := fun _ course => course.arrange
  output := fun _ course => course.output
  host := fun next _ course => course.host next
  collected := fun _ course => course.collected
  slot := fun inside P course => course.slot (inside P course)

/-- A way to compare two runs in a scope and a store. The runs depend on the scope only as all
computations do.
-/
structure Comparison where
  /-- What the first run has to do with the second. -/
  holds : ∀ {α : Type}, Run α → Run α → Scope → Store → Prop
  /-- The slots found in a context whose computations are compared. -/
  slots : Store → ContextId → Slot → Prop
  found : ∀ {st c slot}, Store.Finds st c slot → slots st c slot
  plain
    : ∀ {α : Type} {x : Run α} {scope st},
        st.Plainly (x.outcome scope st).2 → holds x x scope st
  bind
    : ∀ {α β : Type} {x y : Run α} {f g : α → Run β} {scope st},
        holds x y scope st
        → (∀ a middle, x.outcome scope st = (.ok a, middle) → holds (f a) (g a) scope middle)
        → holds (x >>= f) (y >>= g) scope st
  attempt
    : ∀ {α : Type} {x y : Run α} {scope st},
        holds x y scope st → holds (Run.attempt x) (Run.attempt y) scope st
  inside
    : ∀ {α : Type} {x y : Run α} {f : Scope → Scope} {scope st},
        holds x y (f scope) st → holds (withReader f x) (withReader f y) scope st

namespace Run

variable {C : Comparison} {α β : Type}

/-- Runs that compare in every scope and store. -/
class Compared (C : Comparison) (x y : Run α) : Prop where
  compared : ∀ scope st, C.holds x y scope st

/-- A run of plain steps compares with itself. -/
instance (priority := low) Compared.plain (x : Run α) [Follows Store.Plainly x]
    : Compared C x x :=
  ⟨fun scope st => C.plain (Follows.follows scope st)⟩

instance Compared.bind (x y : Run α) (f g : α → Run β) [Compared C x y]
    [∀ a, Compared C (f a) (g a)]
    : Compared C (x >>= f) (y >>= g) :=
  ⟨fun scope st => C.bind (Compared.compared scope st) fun _ middle _ =>
    Compared.compared scope middle⟩

/-- The same with the second part left to prove, for one that analyses the result of the first. -/
theorem Compared.andThen {x y : Run α} {f g : α → Run β} [Compared C x y]
    (second : ∀ a, Compared C (f a) (g a))
    : Compared C (x >>= f) (y >>= g) :=
  Compared.bind x y f g

instance Compared.attempt (x y : Run α) [Compared C x y]
    : Compared C (attempt x) (attempt y) :=
  ⟨fun scope st => C.attempt (Compared.compared scope st)⟩

instance Compared.ite (p : Prop) [Decidable p] (x x' y y' : Run α) [Compared C x x']
    [Compared C y y']
    : Compared C (if p then x else y) (if p then x' else y') := by
  split <;> infer_instance

instance Compared.mapM (f g : α → Run β) (items : List α) [∀ a, Compared C (f a) (g a)]
    : Compared C (items.mapM f) (items.mapM g) := by
  induction items with
  | nil =>
      rw [List.mapM_nil, List.mapM_nil]
      infer_instance
  | cons a rest ih =>
      rw [List.mapM_cons, List.mapM_cons]
      infer_instance

/-- Runs that compare do so in changed surroundings. -/
instance Compared.inside (f : Scope → Scope) (x y : Run α) [Compared C x y]
    : Compared C (withReader f x : Run α) (withReader f y) :=
  ⟨fun scope st => C.inside (Compared.compared (f scope) st)⟩

instance Compared.insideCall (x y : Run α) [Compared C x y]
    : Compared C (insideCall x) (insideCall y) := by
  unfold Run.insideCall
  infer_instance

instance Compared.inContext (c : ContextId) (x y : Run α) [Compared C x y]
    : Compared C (inContext c x) (inContext c y) := by
  unfold Run.inContext
  infer_instance

instance Compared.holding (values : List Value) (x y : Run α) [Compared C x y]
    : Compared C (holding values x) (holding values y) := by
  unfold Run.holding
  infer_instance

instance Compared.gather (value : β → Value) (f g : α → Run β) (items : List α)
    [∀ a, Compared C (f a) (g a)]
    : Compared C (gather value f items) (gather value g items) := by
  induction items with
  | nil =>
      unfold Run.gather
      infer_instance
  | cons a rest ih =>
      unfold Run.gather
      infer_instance

instance Compared.withCallLimit (limit : Nat) (x y : Run α) [Compared C x y]
    : Compared C (withCallLimit limit x) (withCallLimit limit y) := by
  unfold Run.withCallLimit
  infer_instance

end Run
end IncrementalLisp
