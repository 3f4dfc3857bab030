import IncrementalLisp.Context.Store
import IncrementalLisp.Proofs.Value.Held
import Mathlib.Data.List.Forall2

/-! The contexts that survive when those go that nothing refers to: references to contexts that are
held in any case do not matter to them.
-/

namespace IncrementalLisp

namespace Store

variable {kept : List ContextId} {held : ContextId → Bool}

/-- Contexts whose references are the same apart from kept ones. -/
abbrev RefersAlike (kept : List ContextId) (x y : ContextId × List ContextId)
    : Prop :=
  y.1 = x.1 ∧ SameBut kept x.2 y.2

/-- Contexts that refer alike are the same contexts. Witness: induction on the correspondence. -/
theorem names_eq {xs ys : List (ContextId × List ContextId)}
    (alike : List.Forall₂ (RefersAlike kept) xs ys)
    : ys.map (·.1) = xs.map (·.1) := by
  induction alike with
  | nil => rfl
  | cons first _ ih => rw [List.map_cons, List.map_cons, first.1, ih]

/-- They refer to the same ones together, but for those that are kept. Witness: the same induction.
-/
theorem referred_same {xs ys : List (ContextId × List ContextId)}
    (alike : List.Forall₂ (RefersAlike kept) xs ys)
    : SameBut kept (xs.flatMap (·.2)) (ys.flatMap (·.2)) := by
  induction alike with
  | nil => exact .refl _
  | cons first _ ih => exact first.2.append ih

/-- The same contexts are held or referred to when references differ in kept contexts only. -/
theorem left_same (holds : ∀ c ∈ kept, held c = true) {xs ys : List (ContextId × List ContextId)}
    (alike : List.Forall₂ (RefersAlike kept) xs ys)
    : List.Forall₂ (RefersAlike kept)
        (xs.filter fun (c, _) => held c || (xs.flatMap (·.2)).contains c)
        (ys.filter fun (c, _) => held c || (ys.flatMap (·.2)).contains c) := by
  refine List.rel_filter (fun x y same => ?_) alike
  obtain ⟨c, references⟩ := x
  obtain ⟨d, references'⟩ := y
  obtain rfl : d = c := same.1
  simp only [Bool.or_eq_true, List.contains_iff_mem]
  by_cases free : d ∈ kept
  · exact ⟨fun _ => .inl (holds d free), fun _ => .inl (holds d free)⟩
  · rw [referred_same alike d free]

/-- The same contexts survive when references differ in kept contexts only, which are all held.
Witness: induction on the rounds; each leaves out the same contexts.
-/
theorem survivors_same (holds : ∀ c ∈ kept, held c = true) (rounds : Nat)
    {xs ys : List (ContextId × List ContextId)} (alike : List.Forall₂ (RefersAlike kept) xs ys)
    : List.Forall₂ (RefersAlike kept) (survivors held rounds xs) (survivors held rounds ys) := by
  induction rounds generalizing xs ys with
  | zero => exact alike
  | succ rounds ih =>
      have left := left_same holds alike
      rw [survivors, survivors]
      dsimp only
      rw [left.length_eq, alike.length_eq]
      split
      · exact alike
      · exact ih left

end Store

end IncrementalLisp
