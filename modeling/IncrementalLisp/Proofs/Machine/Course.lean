import IncrementalLisp.Proofs.Machine.Run
import IncrementalLisp.Machine.Basic
import IncrementalLisp.Proofs.Host.Sound

/-! Courses of the store. A computation changes the store only by a few steps: it adds the context
of a definition, hands out an identity, arranges a table, writes text, asks the host, lets go of
contexts that nothing refers to, enters and leaves a slot, and remembers the value of one. A
relation between the stores before and after that allows all of these but the last, and that
composes, is kept by everything that a machine does, as soon as the machine's four activities keep
it. A slot is entered and left around a computation, so that a relation may say that those that are
being computed are the same before and after.
-/

namespace IncrementalLisp

/-- A relation between the stores before and after a computation that composes and that every
step but the remembering of a value satisfies.
-/
class Course (P : Store → Store → Prop) : Prop where
  refl : ∀ {st}, P st st
  trans : ∀ {st middle after}, P st middle → P middle after → P st after
  define : ∀ {st c space s node b}, P st (Store.define st c space s node b).2
  identity : ∀ {st}, P st { st with nextIdentity := st.nextIdentity + 1 }
  arrange : ∀ {st}, P st (Store.arrange st).2
  output : ∀ {st text}, P st { st with output := text }
  host : ∀ {st host}, st.host.Next host → P st { st with host := host }
  collected : ∀ {st held}, P st (Store.collected st held)
  slot : ∀ {st after id}, P (Store.enter st id) after → P st (Store.leave after id)

namespace Run

/-- A computation that keeps a course, whatever its outcome. -/
class Follows (P : Store → Store → Prop) {α : Type} (x : Run α) : Prop where
  follows : ∀ scope st, P st (x.outcome scope st).2

/-- What a computation that keeps a course goes from and comes to. -/
theorem Follows.of_eq {P : Store → Store → Prop} {α : Type} {x : Run α} [Follows P x]
    {scope : Scope}
    {st after : Store} {result : Except Halt α} (ran : x.outcome scope st = (result, after))
    : P st after := by
  have follows : P st (x.outcome scope st).2 := Follows.follows scope st
  rwa [ran] at follows

variable {P : Store → Store → Prop} [Course P] {α β : Type}

instance Follows.pure (a : α)
    : Follows P (pure a : Run α) :=
  ⟨fun _ _ => Course.refl⟩

instance Follows.throw (h : Halt)
    : Follows P (throw h : Run α) :=
  ⟨fun _ _ => Course.refl⟩

instance Follows.read
    : Follows P (read : Run Scope) :=
  ⟨fun _ _ => Course.refl⟩

instance Follows.get
    : Follows P (get : Run Store) :=
  ⟨fun _ _ => Course.refl⟩

/-- A sequence keeps a course when its first part does and its second part does from every result
that the first can have.
-/
theorem follows_bind {x : Run α} {f : α → Run β} {scope : Scope} {st : Store}
    (first : P st (x.outcome scope st).2)
    (second
      : ∀ a middle,
          x.outcome scope st = (.ok a, middle) → P middle ((f a).outcome scope middle).2)
    : P st ((x >>= f).outcome scope st).2 := by
  rw [outcome_bind]
  rcases step : x.outcome scope st with ⟨result, middle⟩
  rw [step] at first
  cases result with
  | error h => exact first
  | ok a => exact Course.trans first (second a middle step)

instance Follows.bind (x : Run α) (f : α → Run β) [Follows P x] [∀ a, Follows P (f a)]
    : Follows P (x >>= f) :=
  ⟨fun scope st => follows_bind (Follows.follows scope st) fun _ _ _ => Follows.follows _ _⟩

/-- The same with the second part left to prove, for one that analyses the result of the first. -/
theorem Follows.andThen {x : Run α} {f : α → Run β} [Follows P x] (second : ∀ a, Follows P (f a))
    : Follows P (x >>= f) :=
  Follows.bind x f

instance Follows.tryCatch (x : Run α) (handler : Halt → Run α) [Follows P x]
    [∀ h, Follows P (handler h)]
    : Follows P (tryCatch x handler) where
  follows := by
    intro scope st
    rw [outcome_tryCatch]
    have first : P st (x.outcome scope st).2 := Follows.follows scope st
    rcases step : x.outcome scope st with ⟨result, middle⟩
    rw [step] at first
    cases result with
    | ok a => exact first
    | error h => exact Course.trans first (Follows.follows _ _)

instance Follows.ite (p : Prop) [Decidable p] (x y : Run α) [Follows P x] [Follows P y]
    : Follows P (if p then x else y) := by
  split <;> infer_instance

instance Follows.mapM (f : α → Run β) (items : List α) [∀ a, Follows P (f a)]
    : Follows P (items.mapM f) := by
  induction items with
  | nil =>
      rw [List.mapM_nil]
      infer_instance
  | cons a rest ih =>
      rw [List.mapM_cons]
      infer_instance

instance Follows.fail (e : EvalError)
    : Follows P (fail e : Run α) := by
  unfold Run.fail
  infer_instance

instance Follows.exhausted
    : Follows P (exhausted : Run α) := by
  unfold Run.exhausted
  infer_instance

instance Follows.attempt (x : Run α) [Follows P x]
    : Follows P (attempt x) := by
  have caught (h : Halt)
      : Follows P (match h with
          | .error e => (Pure.pure (.error e) : Run (Except EvalError α))
          | .outOfFuel => Run.exhausted) := by
    cases h <;> infer_instance
  exact Follows.tryCatch _ _

instance Follows.ofExcept (result : Except EvalError α)
    : Follows P (ofExcept result) := by
  cases result <;> unfold Run.ofExcept <;> infer_instance

instance Follows.context (c : ContextId)
    : Follows P (context c) := by
  unfold Run.context
  infer_instance

instance Follows.newIdentity
    : Follows P newIdentity :=
  ⟨fun _ _ => Course.identity⟩

instance Follows.newArrangement
    : Follows P newArrangement :=
  ⟨fun _ _ => Course.arrange⟩

instance Follows.arrangementIf (needed : Bool)
    : Follows P (arrangementIf needed) := by
  unfold Run.arrangementIf
  infer_instance

instance Follows.arrangementFor (count : Nat)
    : Follows P (arrangementFor count) :=
  Follows.arrangementIf _

instance Follows.write (text : String)
    : Follows P (write text) :=
  ⟨fun _ _ => Course.output⟩

/-- To ask the host is a step of a course if the host goes on to a next state. -/
theorem Follows.askHost {question : Host → Except EvalError α × Host}
    (next : ∀ host : Host, host.Next (question host).2)
    : Follows P (askHost question) where
  follows := by
    intro scope st
    unfold Run.askHost
    apply follows_bind
    · exact Course.refl
    · intro found middle read
      obtain ⟨rfl, rfl⟩ : st = found ∧ st = middle := by simpa using read
      rw [outcome_bind]
      have answered : P st { st with host := (question st.host).2 } := Course.host (next st.host)
      cases (question st.host).1 <;> exact answered

instance Follows.askInvoke (target : Value) (member : String) (args : List Value)
    : Follows P (Run.askHost (·.invoke target member args)) :=
  Follows.askHost fun host => host.next_invoke target member args

instance Follows.askInvokeStatic (type member : String) (args : List Value)
    : Follows P (Run.askHost (·.invokeStatic type member args)) :=
  Follows.askHost fun host => host.next_invokeStatic type member args

instance Follows.isLiving (c : ContextId)
    : Follows P (isLiving c) := by
  have kept (held : ContextId → Bool) : Follows P (modify (·.collected held) : Run Unit) :=
    ⟨fun _ _ => Course.collected⟩
  unfold Run.isLiving
  infer_instance

instance Follows.withReader (f : Scope → Scope) (x : Run α) [Follows P x]
    : Follows P (withReader f x) :=
  ⟨fun scope st => Follows.follows (f scope) st⟩

instance Follows.insideCall (x : Run α) [Follows P x]
    : Follows P (insideCall x) := by
  unfold Run.insideCall
  infer_instance

instance Follows.insideSlot (slot : Slot) (x : Run α) [Follows P x]
    : Follows P (insideSlot slot x) where
  follows := by
    intro scope st
    rw [outcome_insideSlot]
    split
    · exact Course.refl
    · exact Course.slot (Follows.follows scope (st.enter slot.id))

instance Follows.inContext (c : ContextId) (x : Run α) [Follows P x]
    : Follows P (inContext c x) := by
  unfold Run.inContext
  infer_instance

instance Follows.holding (values : List Value) (x : Run α) [Follows P x]
    : Follows P (holding values x) := by
  unfold Run.holding
  infer_instance

instance Follows.gather (value : β → Value) (f : α → Run β) (items : List α)
    [∀ a, Follows P (f a)]
    : Follows P (gather value f items) := by
  induction items with
  | nil =>
      unfold Run.gather
      infer_instance
  | cons a rest ih =>
      unfold Run.gather
      infer_instance

instance Follows.withCallLimit (limit : Nat) (x : Run α) [Follows P x]
    : Follows P (withCallLimit limit x) := by
  unfold Run.withCallLimit
  infer_instance

end Run
end IncrementalLisp
