import IncrementalLisp.Proofs.Comparison.Expansion
import IncrementalLisp.Proofs.Levels.Run
import Mathlib.Order.Filter.AtTopBot.Basic

/-! The number of levels decides only whether a run comes to its end: what a machine of the tower
comes to before its fuel ends, every machine of more levels comes to as well.
-/

namespace IncrementalLisp.Machine

open Filter Run

/-- (m.Below m') says that the activities of the first machine come to the same ends as those of the
second, wherever they do before their fuel ends.
-/
abbrev Below (m m' : Machine)
    : Prop :=
  Machine.Compared .levels m m'

/-- Every machine is below itself, activity by activity. -/
theorem Below.refl (m : Machine)
    : m.Below m :=
  ⟨fun _ _ _ => Run.Below.refl _, fun _ _ _ => Run.Below.refl _, fun _ _ => rfl,
    fun _ _ _ _ => Run.Below.refl _⟩

/-- A machine is below what a machine above it is below, activity by activity. -/
theorem Below.trans {m m' m'' : Machine} (first : m.Below m') (second : m'.Below m'')
    : m.Below m'' :=
  ⟨fun n c b => Run.Below.trans (first.eval n c b) (second.eval n c b),
    fun f args c => Run.Below.trans (first.call f args c) (second.call f args c),
    fun {slot c} _ _ _ => (Run.Below.trans (y := m'.force slot c) ⟨fun _ _ => first.force trivial⟩
      ⟨fun _ _ => second.force trivial⟩).compared _ _,
    fun e c form k => Run.Below.trans (first.expand e c form k) (second.expand e c form k)⟩

/-- The exhausted machine is below every machine. -/
theorem below_exhausted (m : Machine)
    : exhausted.Below m :=
  ⟨fun _ _ _ => Run.Below.exhausted _, fun _ _ _ => Run.Below.exhausted _,
    fun _ => (Run.Below.exhausted _).compared _ _, fun _ _ _ _ => Run.Below.exhausted _⟩

section Slots

variable {m m' : Machine} [m.Below m'] (slot : Slot) (finder : ContextId)

instance below_force
    : Run.Below (m.force slot finder) (m'.force slot finder) :=
  ⟨fun _ _ => Compared.force trivial⟩

instance below_computeSlot
    : Run.Below (m.computeSlot slot finder) (m'.computeSlot slot finder) := by
  unfold computeSlot
  split <;> infer_instance

instance below_forceSlot
    : Run.Below (m.forceSlot slot finder) (m'.forceSlot slot finder) := by
  -- a remembered value is no plain step, but it is the same one on both sides
  have remembered (v : Value) : Run.Below (do modify (·.remember slot v); return v)
      (do modify (·.remember slot v); return v) := .refl _
  unfold forceSlot
  apply Run.Compared.andThen
  intro st
  split <;> infer_instance

end Slots

/-- A machine is below the one with one level more. Witness: induction on its levels. -/
theorem below_succ (level : Nat)
    : (ofLevels level).Below (ofLevels (level + 1)) := by
  induction level with
  | zero => exact below_exhausted _
  | succ level ih =>
      constructor
      · exact fun n c b => .inContext c _ _
      · exact fun callee args c => compared_callValue callee args c
      · exact fun {slot c scope st} _ =>
          (Run.Compared.inContext c (C := .levels) _ _).compared scope st
      · exact fun e c form k => .inContext c _ _

/-- Fewer levels are below more levels, by one step after the other. -/
theorem below_of_le {level higher : Nat} (le : level ≤ higher)
    : (ofLevels level).Below (ofLevels higher) := by
  induction le with
  | refl => exact .refl _
  | step _ ih => exact ih.trans (below_succ _)

/-- What one level more makes of almost all machines. -/
theorem eventually_succ {P Q : Nat → Prop} (step : ∀ level, P level → Q (level + 1))
    (almost : ∀ᶠ level in atTop, P level)
    : ∀ᶠ level in atTop, Q level := by
  obtain ⟨least, above⟩ := eventually_atTop.mp almost
  refine eventually_atTop.mpr ⟨least + 1, fun level enough => ?_⟩
  obtain ⟨more, rfl⟩ := Nat.exists_eq_add_of_le enough
  rw [Nat.add_right_comm]
  exact step _ (above _ (Nat.le_add_right least more))

section Families

variable {α : Type} {x : Machine → Run α}
  (below : ∀ {m m' : Machine} [m.Below m'], Run.Below (x m) (x m')) {level : Nat} {scope : Scope}
  {st : Store}
include below

/-- A result of one machine is that of almost all machines, since it is below those of more levels.
-/
theorem eventually_of_ok {a : α} {after : Store}
    (came : (x (ofLevels level)).outcome scope st = (.ok a, after))
    : ∀ᶠ higher in atTop, (x (ofLevels higher)).outcome scope st = (.ok a, after) := by
  refine (eventually_ge_atTop level).mono fun _ le => ?_
  have machines := below_of_le le
  rw [← came]
  exact below.below scope st (by rw [came]; exact ok_ne_outOfFuel)

/-- What almost all machines come to, every machine comes to that has the levels to end. -/
theorem outcome_eq_of_eventually {higher : Nat} (le : level ≤ higher)
    (ended : ((x (ofLevels level)).outcome scope st).1 ≠ .error .outOfFuel)
    {ending : Except Halt α × Store}
    (almost : ∀ᶠ other in atTop, (x (ofLevels other)).outcome scope st = ending)
    : (x (ofLevels higher)).outcome scope st = ending := by
  obtain ⟨other, above, came⟩ := ((eventually_ge_atTop level).and almost).exists
  have machines := below_of_le le
  have others := below_of_le above
  have higherUp : (x (ofLevels higher)).outcome scope st = (x (ofLevels level)).outcome scope st :=
    below.below scope st ended
  have furtherUp : (x (ofLevels other)).outcome scope st = (x (ofLevels level)).outcome scope st :=
    below.below scope st ended
  rw [higherUp, ← furtherUp, came]

/-- The end that a run comes to on one machine, it comes to on almost all. -/
theorem eventually_of_end {r : Except Halt α}
    (came : ((x (ofLevels level)).outcome scope st).1 = r) (ended : r ≠ .error .outOfFuel)
    : ∀ᶠ higher in atTop, ((x (ofLevels higher)).outcome scope st).1 = r := by
  refine (eventually_ge_atTop level).mono fun _ le => ?_
  have machines := below_of_le le
  rw [below.below scope st (came ▸ ended), came]

/-- The end that a run comes to on one machine, it comes to on every machine on which it ends. -/
theorem end_eq {other : Nat} {r : Except Halt α}
    (came : ((x (ofLevels level)).outcome scope st).1 = r) (ended : r ≠ .error .outOfFuel)
    (ended' : ((x (ofLevels other)).outcome scope st).1 ≠ .error .outOfFuel)
    : ((x (ofLevels other)).outcome scope st).1 = r := by
  rcases Nat.le_total level other with le | le
  · have machines := below_of_le le
    rw [below.below scope st (came ▸ ended), came]
  · have machines := below_of_le le
    have runs : Run.Below (x (ofLevels other)) (x (ofLevels level)) := below
    rw [← runs.below scope st ended', came]

end Families

end IncrementalLisp.Machine
