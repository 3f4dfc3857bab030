import IncrementalLisp.Proofs.Forcing.Finishes
import IncrementalLisp.Proofs.Levels.Tower
import Mathlib.Order.Filter.Finite

/-! Computing the values of symbols comes to an end. A slot is computed inside of the computation of
other slots, and never inside of its own, so with every slot there is one less to compute; as long
as the machines add nothing but constants, there are only so many.
-/

namespace IncrementalLisp

open Filter

namespace Machine

variable {S : Set Slot}

/-- On almost all levels the evaluation of a node that only reads comes to an end, if the
computations of slots do. Witness: induction on the parts of the node.
-/
theorem eventually_finishes {p : List SlotId → Prop}
    (forces : ∀ᶠ level in atTop, (ofLevels level).Forces S p) {n : Node} (only : n.OnlyReads)
    : ∀ᶠ level in atTop, ∀ c b, Run.Finishes S p ((ofLevels level).eval n c b) := by
  induction only with
  | @of n shape parts ih =>
      have each := (eventually_all_finite n.shape.parts.finite_toSet).mpr ih
      refine eventually_succ (fun level both c b => ?_) (forces.and each)
      obtain ⟨forces, evaluates⟩ := both
      have body := finishes_evalNode shape evaluates c b
      exact .inContext c _

section Slots

variable (reads : ∀ slot ∈ S, slot.node.OnlyReads)

include reads

/-- Whether or not they come to an end, the machines add no slots but constants. Witness: induction
on the levels.
-/
theorem keeps_ofLevels (level : Nat)
    : (ofLevels level).Forces S (fun _ => False)
      ∧ ∀ {n : Node}, n.OnlyReads
        → ∀ c b, Run.Finishes S (fun _ => False) ((ofLevels level).eval n c b) := by
  induction level with
  | zero =>
      exact ⟨⟨fun within _ => ⟨within, rfl, False.elim⟩⟩,
        fun _ _ _ => ⟨fun within => ⟨within, rfl, False.elim⟩⟩⟩
  | succ level ih =>
      obtain ⟨forces, evaluates⟩ := ih
      constructor
      · refine ⟨fun within found => .inContext fun _ => ?_⟩
        exact finishes_forceSlot (fun _ _ never _ => never)
          (fun among => evaluates (reads _ among)) within found
      · rintro n ⟨shape, parts⟩ c b
        have body := finishes_evalNode shape (fun part member => evaluates (parts part member)) c b
        exact .inContext c _

/-- On almost all levels the computation of a slot comes to an end, if there are so few slots left
that are not being computed. Witness: induction on their number.
-/
theorem eventually_forces (finite : S.Finite) (room : Nat)
    : ∀ᶠ level in atTop, (ofLevels level).Forces S fun forcing =>
        (finite.toFinset.image Slot.id \ forcing.toFinset).card < room := by
  induction room with
  | zero =>
      refine .of_forall fun level => ?_
      simpa only [Nat.not_lt_zero] using (keeps_ofLevels reads level).1
  | succ room ih =>
      have each := (eventually_all_finite finite).mpr fun slot among =>
        eventually_finishes ih (reads slot among)
      refine eventually_succ (fun level both => ?_) (ih.and each)
      obtain ⟨forces, evaluates⟩ := both
      refine ⟨fun within found => .inContext fun _ => ?_⟩
      refine finishes_forceSlot (fun forcing among allowed outside => ?_) (evaluates _) within found
      rw [List.toFinset_cons, Finset.sdiff_insert]
      refine Nat.lt_of_lt_of_le (Finset.card_erase_lt_of_mem ?_) (Nat.le_of_lt_succ allowed)
      simp only [Finset.mem_sdiff, Finset.mem_image, List.mem_toFinset]
      exact ⟨⟨_, finite.mem_toFinset.mpr among, rfl⟩, outside⟩

end Slots

end Machine

end IncrementalLisp
