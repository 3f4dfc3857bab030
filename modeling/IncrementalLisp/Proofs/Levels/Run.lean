import IncrementalLisp.Proofs.Comparison.Run

/-! Runs that differ only in how much fuel they have.
-/

namespace IncrementalLisp

open Run

/-- The comparison of runs by how much fuel they have: wherever the first run comes to an end before
its fuel does, the second comes to the same end.
-/
def Comparison.levels : Comparison where
  holds x y scope st :=
    (x.outcome scope st).1 ≠ .error .outOfFuel → y.outcome scope st = x.outcome scope st
  slots _ _ _ := True
  found _ := trivial
  plain _ _ := rfl
  bind := by
    intro _ _ x y f g scope st first second ended
    rw [outcome_bind] at ended ⊢
    rw [outcome_bind]
    rcases step : x.outcome scope st with ⟨result, middle⟩
    rw [step] at first ended
    cases result with
    | error h => rw [first (by simpa using ended)]
    | ok a =>
        rw [first ok_ne_outOfFuel]
        exact second a middle step ended
  -- an attempt hands the end of the fuel on
  attempt := by
    intro _ x y scope st first ended
    rw [outcome_attempt] at ended ⊢
    rw [outcome_attempt]
    rcases step : x.outcome scope st with ⟨result, middle⟩
    rw [step] at first ended
    cases result with
    | ok a => rw [first ok_ne_outOfFuel]
    | error h =>
        cases h with
        | error e => rw [first (by simp)]
        | outOfFuel => exact absurd rfl ended
  inside holds := holds

namespace Run

variable {α : Type}

/-- (Below x y) says that wherever the first run comes to an end before its fuel does, the second
comes to the same end.
-/
abbrev Below (x y : Run α)
    : Prop :=
  Compared .levels x y

/-- A run below another one that does not run out of fuel ends as the other one does. -/
theorem Below.below {x y : Run α} [runs : Below x y] (scope : Scope) (st : Store)
    (ended : (x.outcome scope st).1 ≠ .error .outOfFuel)
    : y.outcome scope st = x.outcome scope st :=
  runs.compared scope st ended

/-- Every run is below itself. -/
theorem Below.refl (x : Run α)
    : Below x x :=
  ⟨fun _ _ _ => rfl⟩

/-- A run is below what a run above it is below, since both end as the first one does. -/
theorem Below.trans {x y z : Run α} (first : Below x y) (second : Below y z)
    : Below x z := by
  constructor
  intro scope st ended
  have same := first.below scope st ended
  rw [← same] at ended
  rw [second.below scope st ended, same]

/-- A run that is out of fuel is below every run. -/
theorem Below.exhausted (y : Run α)
    : Below exhausted y :=
  ⟨fun _ _ ended => absurd rfl ended⟩

instance Below.insideSlot (slot : Slot) (x y : Run α) [runs : Below x y]
    : Below (insideSlot slot x) (insideSlot slot y) where
  compared := by
    intro scope st
    change (_ → _)
    rw [outcome_insideSlot, outcome_insideSlot]
    split
    · exact fun _ => rfl
    · intro ended
      rw [runs.below scope (st.enter slot.id) ended]

end Run
end IncrementalLisp
