import IncrementalLisp.Proofs.Primitive.Alike
import IncrementalLisp.Proofs.Simulation.History

/-! Runs that simulate each other. One run takes part in the history of a store; the other evaluates
alike programs from scratch, in a store of its own. Neither store is compared with the other: what
relates them are the two stores in which the runs come to their ends.
-/

namespace IncrementalLisp

namespace Store

/-- (left.Matches right size size') relates those of the first contexts of two stores that have
the same namespace and similar slots, or none, under some names.
-/
abbrev Matches (left right : Store) (size size' : Nat)
    : Match :=
  left.Matched right (left.Similar right) size size'

/-- (Repeats left right size' other w) says that a value from scratch is alike to the value that
any run in the history of the other store computes for a similar slot.
-/
def Repeats (left right : Store) (size' : Nat) (other : Slot) (w : Value)
    : Prop :=
  ∀ (n : Nat) (slot : Slot) (finder : ContextId) (scope : Scope) (st after : Store) (v : Value),
    left.Similar right slot other → Recalls (Computes left) st → st.Finds finder slot
    → (left.context finder).space?.isSome
    → ((Machine.ofLevels n).computeSlot slot finder).outcome scope st = (.ok v, after)
    → after.Extends left
    → Recalls (Computes left) after
      ∧ v.Alike (left.Matches right after.contexts.size size') w

instance lasting_repeats (left right : Store) : Lasting (Repeats left right) where
  widen := by
    intro size' later other w repeats grows n slot finder scope st after v similar recalls found
      settled ran leads
    obtain ⟨kept, alike⟩ := repeats n slot finder scope st after v similar recalls found settled ran
      leads
    exact ⟨kept, alike.mono (Matched.within id (Nat.le_refl _) grows)⟩

end Store

namespace Run

open Store

variable {α β γ δ : Type} {left right : Store} {N N' : Nat}

/-- (Simulates left right N N' Q x y) says that if two runs, in stores of at least so many contexts,
both have a result, then the results are related, and each run leaves a store of its kind.
-/
structure Simulates (left right : Store) (N N' : Nat) (Q : Nat → Nat → α → β → Prop) (x : Run α)
    (y : Run β) : Prop where
  ends
    : ∀ {scope scope' : Scope} {st st' after after' : Store} {a : α} {b : β},
        N ≤ st.contexts.size → N' ≤ st'.contexts.size
        → Recalls (Computes left) st → Recalls (Repeats left right) st'
        → x.outcome scope st = (.ok a, after) → y.outcome scope' st' = (.ok b, after')
        → after.Extends left → after'.Extends right
        → Recalls (Computes left) after ∧ Recalls (Repeats left right) after'
          ∧ Q after.contexts.size after'.contexts.size a b

variable {Q : Nat → Nat → α → β → Prop} {R : Nat → Nat → γ → δ → Prop} {x : Run α} {y : Run β}

/-- Returned values simulate each other if they are related from then on. -/
theorem Simulates.pure {a : α} {b : β} (related : ∀ n n', N ≤ n → N' ≤ n' → Q n n' a b)
    : Simulates left right N N' Q (pure a) (pure b) := by
  constructor
  rintro scope scope' st st' after after' _ _ bound bound' recalls recalls' ⟨⟩ ⟨⟩ _ _
  exact ⟨recalls, recalls', related _ _ bound bound'⟩

/-- Runs simulate each other for any weaker relation of their results. -/
theorem Simulates.mono {T : Nat → Nat → α → β → Prop} (simulates : Simulates left right N N' Q x y)
    (weaker : ∀ {n n' a b}, N ≤ n → N' ≤ n' → Q n n' a b → T n n' a b)
    [Follows Leads x] [Follows Leads y]
    : Simulates left right N N' T x y := by
  constructor
  intro scope scope' st st' after after' a b bound bound' recalls recalls' ran ran' leads leads'
  have grows : st.contexts.size ≤ (x.outcome scope st).2.contexts.size :=
    (Follows.follows (P := Leads) scope st).grows.1
  have grows' : st'.contexts.size ≤ (y.outcome scope' st').2.contexts.size :=
    (Follows.follows (P := Leads) scope' st').grows.1
  rw [ran] at grows
  rw [ran'] at grows'
  obtain ⟨ends, ends', related⟩ :=
    simulates.ends bound bound' recalls recalls' ran ran' leads leads'
  exact ⟨ends, ends', weaker (Nat.le_trans bound grows) (Nat.le_trans bound' grows') related⟩

/-- Sequences simulate each other when their parts do, the second parts from related results; here
the second parts need to go on by steps only where the first ones ended.
-/
theorem Simulates.bind_of {f : α → Run γ} {g : β → Run δ} (first : Simulates left right N N' Q x y)
    (onward
      : ∀ {scope st a middle}, x.outcome scope st = (.ok a, middle)
        → middle.Leads ((f a).outcome scope middle).2)
    (onward'
      : ∀ {scope st b middle}, y.outcome scope st = (.ok b, middle)
        → middle.Leads ((g b).outcome scope middle).2)
    (rest
      : ∀ {n n' a b}, N ≤ n → N' ≤ n' → Q n n' a b
        → Simulates left right n n' R (f a) (g b))
    [Follows Leads x] [Follows Leads y]
    : Simulates left right N N' R (x >>= f) (y >>= g) := by
  constructor
  intro scope scope' st st' after after' c d bound bound' recalls recalls' ran ran' leads leads'
  rw [outcome_bind_eq_ok] at ran ran'
  obtain ⟨a, middle, ran, later⟩ := ran
  obtain ⟨b, middle', ran', later'⟩ := ran'
  have grows : st.Leads (x.outcome scope st).2 := Follows.follows scope st
  have grows' : st'.Leads (y.outcome scope' st').2 := Follows.follows scope' st'
  have goes := onward ran
  have goes' := onward' ran'
  rw [ran] at grows
  rw [ran'] at grows'
  rw [later] at goes
  rw [later'] at goes'
  obtain ⟨between, between', related⟩ :=
    first.ends bound bound' recalls recalls' ran ran' (Leads.onward goes leads)
      (Leads.onward goes' leads')
  refine (rest (Nat.le_trans bound grows.grows.1) (Nat.le_trans bound' grows'.grows.1) related).ends
    (Nat.le_refl _) (Nat.le_refl _) between between' later later' leads leads'

/-- Runs simulate each other when runs follow that do so from related results on. -/
theorem Simulates.bind {f : α → Run γ} {g : β → Run δ} (first : Simulates left right N N' Q x y)
    (rest
      : ∀ {n n' a b}, N ≤ n → N' ≤ n' → Q n n' a b
        → Simulates left right n n' R (f a) (g b))
    [Follows Leads x] [Follows Leads y] [∀ a, Follows Leads (f a)] [∀ b, Follows Leads (g b)]
    : Simulates left right N N' R (x >>= f) (y >>= g) :=
  first.bind_of (fun _ => Follows.follows _ _) (fun _ => Follows.follows _ _) rest

/-- A run without a result is simulated by every other. -/
theorem Simulates.of_left (never : ∀ scope st a after, x.outcome scope st ≠ (.ok a, after))
    : Simulates left right N N' Q x y := by
  constructor
  intro scope scope' st st' after after' a b _ _ _ _ ran
  exact absurd ran (never _ _ _ _)

/-- A run without a result simulates every other. -/
theorem Simulates.of_right (never : ∀ scope st b after, y.outcome scope st ≠ (.ok b, after))
    : Simulates left right N N' Q x y := by
  constructor
  intro scope scope' st st' after after' a b _ _ _ _ _ ran
  exact absurd ran (never _ _ _ _)

/-- A run that is out of fuel returns nothing. -/
theorem exhausted_ne_ok (scope : Scope) (st : Store) (a : α) (after : Store)
    : (exhausted : Run α).outcome scope st ≠ (.ok a, after) := by
  rintro ⟨⟩

/-- Neither does a failure. -/
theorem fail_ne_ok (e : EvalError) (scope : Scope) (st : Store) (a : α) (after : Store)
    : (fail e : Run α).outcome scope st ≠ (.ok a, after) := by
  rintro ⟨⟩

/-- Neither does a run followed by what returns nothing. -/
theorem bind_ne_ok {f : α → Run γ}
    (never : ∀ a scope st c after, (f a).outcome scope st ≠ (.ok c, after))
    (scope : Scope) (st : Store) (c : γ) (after : Store)
    : (x >>= f).outcome scope st ≠ (.ok c, after) := by
  rw [Ne, outcome_bind_eq_ok]
  rintro ⟨a, middle, _, ran⟩
  exact never a _ _ _ _ ran

/-- Runs that remember no value simulate each other. -/
theorem Simulates.aside [Follows Quiet x] [Follows Quiet y]
    : Simulates left right N N' (fun _ _ _ _ => True) x y := by
  constructor
  intro scope scope' st st' after after' a b _ _ recalls recalls' ran ran' _ _
  have quiet : st.Quiet (x.outcome scope st).2 := Follows.follows scope st
  have quiet' : st'.Quiet (y.outcome scope' st').2 := Follows.follows scope' st'
  rw [ran] at quiet
  rw [ran'] at quiet'
  exact ⟨quiet.2 _ recalls, quiet'.2 _ recalls', trivial⟩

/-- The results of functions simulate each other if they are related whenever both are there. -/
theorem Simulates.ofExcept {result : Except EvalError α} {result' : Except EvalError β}
    (related
      : ∀ n n', N ≤ n → N' ≤ n' → ∀ a b, result = .ok a → result' = .ok b → Q n n' a b)
    : Simulates left right N N' Q (ofExcept result) (ofExcept result') := by
  cases result with
  | error e => exact .of_left (fail_ne_ok e)
  | ok a =>
      cases result' with
      | error e => exact .of_right (fail_ne_ok e)
      | ok b => exact .pure fun n n' bound bound' => related n n' bound bound' a b rfl rfl

/-- Runs in contexts simulate each other as they do by themselves. -/
theorem Simulates.inContext (c d : ContextId) (simulates : Simulates left right N N' Q x y)
    : Simulates left right N N' Q (inContext c x) (inContext d y) := by
  constructor
  intro scope scope' st st' after after' a b bound bound' recalls recalls' ran ran'
  exact simulates.ends bound bound' recalls recalls' ran ran'

/-- So do runs while some values are at hand, whatever the values are. -/
theorem Simulates.holding {values values' : List Value}
    (simulates : Simulates left right N N' Q x y)
    : Simulates left right N N' Q (holding values x) (holding values' y) := by
  constructor
  intro scope scope' st st' after after' a b bound bound' recalls recalls' ran ran'
  exact simulates.ends bound bound' recalls recalls' ran ran'

/-- Calls that go on simulate each other when what goes on in them does. -/
theorem Simulates.insideCall (simulates : Simulates left right N N' Q x y)
    : Simulates left right N N' Q (insideCall x) (insideCall y) := by
  constructor
  intro scope scope' st st' after after' a b bound bound' recalls recalls' ran ran'
  unfold Run.insideCall at ran ran'
  rw [outcome_bind_eq_ok] at ran ran'
  obtain ⟨_, _, ⟨⟩, ran⟩ := ran
  obtain ⟨_, _, ⟨⟩, ran'⟩ := ran'
  split at ran
  · split at ran'
    · exact simulates.ends bound bound' recalls recalls' ran ran'
    · cases ran'
  · cases ran

/-- Runs inside slots simulate each other, where both have returned. -/
theorem Simulates.insideSlot (slot other : Slot) (simulates : Simulates left right N N' Q x y)
    : Simulates left right N N' Q (insideSlot slot x) (insideSlot other y) := by
  constructor
  intro scope scope' st st' after after' a b bound bound' recalls recalls' ran ran'
  rw [outcome_insideSlot_eq_ok] at ran ran'
  obtain ⟨-, middle, ran, rfl⟩ := ran
  obtain ⟨-, middle', ran', rfl⟩ := ran'
  intro leads leads'
  have room : N ≤ (st.enter slot.id).contexts.size := bound
  have room' : N' ≤ (st'.enter other.id).contexts.size := bound'
  obtain ⟨kept, kept', related⟩ := simulates.ends room room'
    ((quiet_enter st slot.id).2 _ recalls) ((quiet_enter st' other.id).2 _ recalls') ran ran'
    ((quiet_leave middle slot.id).1.onward leads) ((quiet_leave middle' other.id).1.onward leads')
  exact ⟨(quiet_leave middle slot.id).2 _ kept, (quiet_leave middle' other.id).2 _ kept', related⟩

end Run
end IncrementalLisp
