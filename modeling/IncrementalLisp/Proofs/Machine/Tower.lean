import IncrementalLisp.Proofs.Machine.Expansions
import IncrementalLisp.Session.Prelude

/-! Everything the machines do keeps a course to which remembering the computed value of a slot
belongs: by induction on the levels, and from there in the runs of whole texts.
-/

namespace IncrementalLisp

/-- A course to which it belongs that a slot without a value is given the value that a machine of
a tower computes for it.
-/
class Recollection (tower : Nat → Machine) (P : Store → Store → Prop) : Prop extends Course P where
  remember
    : ∀ {n : Nat} {slot : Slot} {finder : ContextId} {scope : Scope} {st after : Store} {v : Value},
        st.Finds finder slot → st.value? slot = none
        → ((tower n).computeSlot slot finder).outcome scope st = (.ok v, after)
        → P st after → P st (after.remember slot v)

namespace Machine

open Run

section Computing

variable {P : Store → Store → Prop} [Course P] {m : Machine} [m.Follows P]

instance follows_contextOf (slot : Slot) (finder : ContextId)
    : Run.Follows P (m.contextOf slot finder) := by
  unfold contextOf
  infer_instance

instance follows_computeSlot (slot : Slot) (finder : ContextId)
    : Run.Follows P (m.computeSlot slot finder) := by
  unfold computeSlot
  split <;> infer_instance

end Computing

/-- To force a slot follows what the tower remembers by: the slot is known, or computed and
remembered.
-/
theorem follows_forceSlot {P : Store → Store → Prop} (tower : Nat → Machine)
    [Recollection tower P] (n : Nat) [(tower n).Follows P] {slot : Slot} {finder : ContextId}
    {scope : Scope} {st : Store} (found : st.Finds finder slot)
    : P st (((tower n).forceSlot slot finder).outcome scope st).2 := by
  unfold forceSlot
  apply follows_bind
  · exact Course.refl
  · intro current middle read
    obtain ⟨rfl, rfl⟩ : st = current ∧ st = middle := by simpa using read
    cases known : st.value? slot with
    | some v => exact Course.refl
    | none =>
        have computed : P st (((tower n).computeSlot slot finder).outcome scope st).2 :=
          Run.Follows.follows scope st
        rw [outcome_bind]
        rcases step : ((tower n).computeSlot slot finder).outcome scope st with ⟨result, after⟩
        rw [step] at computed
        cases result with
        | error h => exact computed
        | ok v => exact Recollection.remember found known step computed

/-- Every machine keeps the course. Witness: induction on its levels. -/
instance follows_ofLevels {P : Store → Store → Prop} [Recollection ofLevels P] (n : Nat)
    : (ofLevels n).Follows P := by
  induction n with
  | zero =>
      constructor
      · exact fun _ _ _ => Run.Follows.exhausted
      · exact fun _ _ _ => Run.Follows.exhausted
      · exact fun _ => Course.refl
      · exact fun _ _ _ _ => Run.Follows.exhausted
  | succ n ih =>
      constructor
      · exact fun node c b => Run.Follows.inContext c (Run.holding _ _)
      · exact fun callee args c => follows_callValue callee args c
      · exact fun found => follows_forceSlot ofLevels n found
      · exact fun e c form k => Run.Follows.inContext c (Run.holding _ _)

-----------------------------------------------------------------------------------------
-- Whole texts
-----------------------------------------------------------------------------------------

section Texts

variable {P : Store → Store → Prop} [Course P] {m : Machine} [m.Follows P]

instance follows_expandTop (config : Config) (form : Value) (c : ContextId)
    : Run.Follows P (m.expandTop config form c) := by
  unfold expandTop
  infer_instance

instance follows_runForm (config : Config) (form : Value) (c : ContextId)
    : Run.Follows P (m.runForm config form c) := by
  unfold runForm
  infer_instance

instance follows_runForms (config : Config) (forms : List Value) (last : Value) (c : ContextId)
    : Run.Follows P (m.runForms config forms last c) := by
  induction forms generalizing last c with
  | nil =>
      unfold runForms
      infer_instance
  | cons form rest ih =>
      unfold runForms
      infer_instance

instance follows_run (config : Config) (reading : Reading) (c : ContextId)
    : Run.Follows P (m.run config reading c) := by
  unfold run
  split <;> infer_instance

instance follows_loadForms (forms : List Value) (last : Value) (c : ContextId)
    : Run.Follows P (m.loadForms forms last c) := by
  induction forms generalizing last c with
  | nil =>
      unfold loadForms
      infer_instance
  | cons form rest ih =>
      unfold loadForms
      infer_instance

instance follows_load (reading : Reading) (c : ContextId)
    : Run.Follows P (m.load reading c) := by
  unfold load
  split <;> infer_instance

instance follows_defineConstants (definitions : List (Symbol × Value)) (c : ContextId)
    : Run.Follows P (m.defineConstants definitions c) := by
  induction definitions generalizing c with
  | nil =>
      unfold defineConstants
      infer_instance
  | cons definition rest ih =>
      unfold defineConstants
      infer_instance

instance follows_bootstrap (c : ContextId)
    : Run.Follows P (m.bootstrap c) := by
  unfold bootstrap
  infer_instance

instance follows_corePrelude (c : ContextId)
    : Run.Follows P (m.corePrelude c) := by
  unfold corePrelude
  infer_instance

instance follows_enterSpace (config : Config) (c : ContextId)
    : Run.Follows P (m.enterSpace config c) := by
  unfold enterSpace
  infer_instance

end Texts

end Machine
end IncrementalLisp
