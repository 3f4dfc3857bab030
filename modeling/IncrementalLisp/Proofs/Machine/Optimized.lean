import IncrementalLisp.Proofs.Levels.Tower
import IncrementalLisp.Proofs.Mirror.Unfolding

/-! Simplification preserves meaning: the evaluation of a program that defines nothing and that of
its simpler form come to the same end, up to functions and expanders whose bodies differ only by
simplification. There are two exceptions. A table of constants is made once by simplification and
anew by every evaluation, and new tables may hand their items out in another order. And a constant
that stands between other nodes of a sequence ends the life of the value before it, which is what
keeps a context alive; without it the value lives on.
-/

namespace IncrementalLisp

open Filter Machine

/-- What the evaluation of a node may come to. -/
abbrev Outcome :=
  Except Halt (Value × ContextId) × Store

/-- What the evaluations of a program and of its simpler form come to: errors of the same text, or
the same context and values that differ only by simplification.
-/
inductive Outcome.Agrees (P : Pass) : Outcome → Outcome → Prop where
  | failed {e e' : EvalError} {st st' : Store} (errors : e.Alike P e') (text : e'.text = e.text)
      (stores : st.Alike P st')
      : Agrees P (.error (.error e), st) (.error (.error e'), st')
  | succeeded {v w : Value} {c : ContextId} {st st' : Store} (values : v.Alike P w)
      (stores : st.Alike P st')
      : Agrees P (.ok (v, c), st) (.ok (w, c), st')

/-- Outcomes that are alike up to a pass agree up to it, case by case. -/
theorem Run.OutcomesAlike.agrees {P : Pass} {o o' : Outcome}
    (alike : OutcomesAlike P (EndsAlike P) o o')
    : o.Agrees P o' := by
  obtain ⟨result, st⟩ := o
  obtain ⟨result', st'⟩ := o'
  obtain ⟨results, stores⟩ := alike
  dsimp only at results stores
  cases results with
  | @error h h' failed =>
      cases h with
      | outOfFuel => exact failed.elim
      | error e =>
          obtain ⟨e', rfl, errors⟩ := failed
          exact .failed errors errors.text_eq stores
  | @ok x y ends =>
      obtain ⟨v, c⟩ := x
      obtain ⟨w, d⟩ := y
      obtain ⟨values, rfl⟩ : v.Alike P w ∧ d = c := ends
      exact .succeeded values stores

/-- An outcome that agrees with another one does not run out of fuel. -/
theorem Outcome.Agrees.ended {P : Pass} {o o' : Outcome} (agrees : o.Agrees P o')
    : o'.1 ≠ .error .outOfFuel := by
  cases agrees <;> exact nofun

end IncrementalLisp
