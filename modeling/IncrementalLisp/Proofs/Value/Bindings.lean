import IncrementalLisp.Proofs.Value.Alike
import Mathlib.Data.List.Forall2

/-! Alike lists and bindings under the operations on them.
-/

namespace IncrementalLisp

variable {M : Likeness}

-----------------------------------------------------------------------------------------
-- Lists
-----------------------------------------------------------------------------------------

/-- Several values are alike if they are so one by one. Witness: induction on them. -/
theorem valuesAlike_iff_forall₂ {vs ws : List Value}
    : ValuesAlike M vs ws ↔ List.Forall₂ (Value.Alike M) vs ws := by
  induction vs generalizing ws with
  | nil => simp [ValuesAlike]
  | cons v rest ih =>
      constructor
      · rintro ⟨w, others, rfl, first, alike⟩
        exact .cons first (ih.mp alike)
      · rintro (_ | ⟨first, alike⟩)
        exact ⟨_, _, rfl, first, ih.mpr alike⟩

/-- So are nodes. Witness: induction on them. -/
theorem nodesAlike_iff_forall₂ {ns ns' : List Node}
    : NodesAlike M ns ns' ↔ List.Forall₂ (Node.Alike M) ns ns' := by
  induction ns generalizing ns' with
  | nil => simp [NodesAlike]
  | cons n rest ih =>
      constructor
      · rintro ⟨n', others, rfl, first, alike⟩
        exact .cons first (ih.mp alike)
      · rintro (_ | ⟨first, alike⟩)
        exact ⟨_, _, rfl, first, ih.mpr alike⟩

-----------------------------------------------------------------------------------------
-- Tests of values
-----------------------------------------------------------------------------------------

/-- Values that are alike are true together, by their kind. -/
theorem Value.Alike.isTruthy_eq {v w : Value} (alike : v.Alike M w)
    : w.isTruthy = v.isTruthy := by
  cases v with
  | list | vector | map | set | function | expander | node =>
      obtain ⟨_, rfl, _⟩ := alike
      rfl
  | _ =>
      obtain rfl := alike
      rfl

/-- They have types of the same name. -/
theorem Value.Alike.typeName_eq {v w : Value} (alike : v.Alike M w)
    : w.typeName = v.typeName := by
  cases v with
  | list | vector | map | set | function | expander | node =>
      obtain ⟨_, rfl, _⟩ := alike
      rfl
  | _ =>
      obtain rfl := alike
      rfl

-----------------------------------------------------------------------------------------
-- Bindings
-----------------------------------------------------------------------------------------

variable {b b' : Bindings}

/-- Bindings that are alike give a symbol values that are, if any. Witness: induction on the
bindings.
-/
theorem BindingsAlike.get? (alike : BindingsAlike M b b') (s : Symbol)
    : Option.Rel (Value.Alike M) (b.get? s) (b'.get? s) := by
  induction b generalizing b' with
  | nil =>
      obtain rfl := alike
      exact .none
  | cons entry rest ih =>
      obtain ⟨name, v⟩ := entry
      obtain ⟨v', others, rfl, first, last⟩ := alike
      rw [Bindings.get?_cons, Bindings.get?_cons]
      split
      · exact .some first
      · exact ih last

/-- Alike bindings have the same lexical names, with alike values. -/
theorem BindingsAlike.lexical? (alike : BindingsAlike M b b') (s : Symbol)
    : Option.Rel (Value.Alike M) (b.lexical? s) (b'.lexical? s) := by
  unfold Bindings.lexical?
  split
  · exact .none
  · exact alike.get? s

/-- Bindings stay alike without a symbol. Witness: induction on them. -/
theorem BindingsAlike.erase (alike : BindingsAlike M b b') (s : Symbol)
    : BindingsAlike M (b.erase s) (b'.erase s) := by
  induction b generalizing b' with
  | nil =>
      obtain rfl := alike
      rfl
  | cons entry rest ih =>
      obtain ⟨name, v⟩ := entry
      obtain ⟨v', others, rfl, first, last⟩ := alike
      rw [Bindings.erase_cons, Bindings.erase_cons]
      split
      · exact ih last
      · exact ⟨v', _, rfl, first, ih last⟩

/-- They stay alike without several symbols. Witness: induction on these. -/
theorem BindingsAlike.eraseAll (alike : BindingsAlike M b b') (names : List Symbol)
    : BindingsAlike M (b.eraseAll names) (b'.eraseAll names) := by
  unfold Bindings.eraseAll
  induction names generalizing b b' with
  | nil => exact alike
  | cons s rest ih => exact ih (alike.erase s)

/-- They stay alike with values for a symbol that are. -/
theorem BindingsAlike.insert {v v' : Value} (alike : BindingsAlike M b b') (s : Symbol)
    (value : v.Alike M v')
    : BindingsAlike M (b.insert s v) (b'.insert s v') :=
  ⟨v', _, rfl, value, alike.erase s⟩

end IncrementalLisp
