import IncrementalLisp.Error
import IncrementalLisp.Proofs.Value.Printed

/-! Alike errors, and the results of functions that may fail. Alike errors have the same text,
because alike values are printed alike.
-/

namespace IncrementalLisp

section Alike

variable (M : Likeness)

/-- Likeness of refusals. -/
def Fault.Alike : Fault → Fault → Prop
  | .expected what got, f => ∃ w, f = .expected what w ∧ got.Alike M w
  | .expectedIndex got, f => ∃ w, f = .expectedIndex w ∧ got.Alike M w
  | .indexNotLong got, f => ∃ w, f = .indexNotLong w ∧ got.Alike M w
  | .outOfCount index count, f => ∃ w, f = .outOfCount w count ∧ index.Alike M w
  | .cannot deed on, f => ∃ w, f = .cannot deed w ∧ on.Alike M w
  | .noSize v, f => ∃ w, f = .noSize w ∧ v.Alike M w
  | .notIndexed v, f => ∃ w, f = .notIndexed w ∧ v.Alike M w
  | fault, f => f = fault

/-- Likeness of failed calls. -/
def CallFault.Alike : CallFault → CallFault → Prop
  | .refused callee fault, f => ∃ other, f = .refused callee other ∧ fault.Alike M other
  | .noReceiver member target, f => ∃ w, f = .noReceiver member w ∧ target.Alike M w
  | fault, f => f = fault

/-- Likeness of what is wrong with a part of a form. -/
def PartFault.Alike : PartFault → PartFault → Prop
  | .valueNotASymbol role got, f => ∃ w, f = .valueNotASymbol role w ∧ got.Alike M w
  | fault, f => f = fault

/-- Likeness of errors. -/
def EvalError.Alike : EvalError → EvalError → Prop
  | .expansion fault form, e => ∃ form', e = .expansion fault form' ∧ form.Alike M form'
  | .analysis fault form, e =>
      ∃ fault' form', e = .analysis fault' form' ∧ fault.Alike M fault' ∧ form.Alike M form'
  | .invocation fault none, e => ∃ fault', e = .invocation fault' none ∧ fault.Alike M fault'
  | .invocation fault (some cause), e =>
      ∃ fault' cause', e = .invocation fault' (some cause') ∧ fault.Alike M fault'
        ∧ cause.Alike cause'
  | error, e => e = error

end Alike

variable {M : Likeness}

/-- A refusal is like itself when the values in it are like themselves. -/
theorem Fault.Alike.self (self : ∀ v : Value, v.Alike M v) (fault : Fault)
    : fault.Alike M fault := by
  cases fault with
  | expected | expectedIndex | indexNotLong | outOfCount | cannot | noSize | notIndexed =>
      exact ⟨_, rfl, self _⟩
  | _ => rfl

-----------------------------------------------------------------------------------------
-- Texts
-----------------------------------------------------------------------------------------

/-- Faults that are alike have the same wording, by their kind. -/
theorem Fault.Alike.wording_eq {f g : Fault} (alike : f.Alike M g)
    : g.wording = f.wording := by
  cases f with
  | expected | indexNotLong | cannot | noSize | notIndexed =>
      obtain ⟨w, rfl, values⟩ := alike
      unfold Fault.wording
      dsimp only
      rw [values.typeName_eq]
  | expectedIndex | outOfCount =>
      obtain ⟨w, rfl, values⟩ := alike
      unfold Fault.wording
      dsimp only
      rw [values.repr_eq]
  | _ =>
      obtain rfl := alike
      rfl

/-- So have faults of calls, by their kind. -/
theorem CallFault.Alike.wording_eq {f g : CallFault} (alike : f.Alike M g)
    : g.wording = f.wording := by
  cases f with
  | refused =>
      obtain ⟨other, rfl, faults⟩ := alike
      unfold CallFault.wording
      dsimp only
      rw [faults.wording_eq]
  | noReceiver =>
      obtain ⟨w, rfl, values⟩ := alike
      unfold CallFault.wording
      dsimp only
      rw [values.typeName_eq]
  | _ =>
      obtain rfl := alike
      rfl

/-- So have faults of parts, by their kind. -/
theorem PartFault.Alike.message_eq {f g : PartFault} (alike : f.Alike M g)
    : g.message = f.message := by
  cases f with
  | valueNotASymbol =>
      obtain ⟨w, rfl, values⟩ := alike
      unfold PartFault.message
      dsimp only
      rw [values.repr_eq]
  | _ =>
      obtain rfl := alike
      rfl

/-- Forms that are alike stand at the same place. -/
theorem Value.Alike.location?_eq {v w : Value} (alike : v.Alike M w)
    : w.location? = v.location? := by
  cases v with
  | list | vector | map | set | function | expander | node =>
      obtain ⟨_, rfl, _⟩ := alike
      rfl
  | _ =>
      obtain rfl := alike
      rfl

/-- So they are the same site in a message, where their text is the same. -/
theorem Value.Alike.site_eq {form form' : Value} (alike : form.Alike M form')
    : EvalError.site form' = EvalError.site form := by
  unfold EvalError.site
  rw [alike.location?_eq, alike.repr_eq]

/-- Alike errors have the same wording. Witness: the values that they name are printed alike. -/
theorem EvalError.Alike.wording_eq {e e' : EvalError} (alike : e.Alike M e')
    : e'.wording = e.wording := by
  cases e with
  | expansion =>
      obtain ⟨form', rfl, forms⟩ := alike
      unfold EvalError.wording
      dsimp only
      rw [forms.site_eq]
  | analysis =>
      obtain ⟨fault', form', rfl, faults, forms⟩ := alike
      unfold EvalError.wording
      dsimp only
      rw [faults.message_eq, forms.site_eq]
  | invocation fault cause =>
      unfold EvalError.wording
      cases cause with
      | none =>
          obtain ⟨fault', rfl, faults⟩ := alike
          dsimp only
          rw [faults.wording_eq]
      | some cause =>
          obtain ⟨fault', cause', rfl, faults, _⟩ := alike
          dsimp only
          rw [faults.wording_eq]
  | _ =>
      obtain rfl := alike
      rfl

/-- Alike errors have the same text. -/
theorem EvalError.Alike.text_eq {e e' : EvalError} (alike : e.Alike M e')
    : e'.text = e.text :=
  congrArg Wording.text alike.wording_eq

/-- Values that are alike have the wrong type alike. -/
theorem wrongType_alike {v w : Value} (expected : String) (alike : v.Alike M w)
    : (EvalError.wrongType expected v).Alike M (.wrongType expected w) := by
  unfold EvalError.wrongType
  rw [alike.typeName_eq]
  rfl

-----------------------------------------------------------------------------------------
-- Results
-----------------------------------------------------------------------------------------

/-- (ResultsAlike E Q x y) says that two functions both fail, with related errors, or both have a
result, and these are related.
-/
inductive ResultsAlike {ε α β : Type} (E : ε → ε → Prop) (Q : α → β → Prop)
    : Except ε α → Except ε β → Prop where
  | error {e e' : ε} : E e e' → ResultsAlike E Q (.error e) (.error e')
  | ok {a : α} {b : β} : Q a b → ResultsAlike E Q (.ok a) (.ok b)

namespace ResultsAlike

variable {ε α β γ δ : Type} {E : ε → ε → Prop} {Q R : α → β → Prop}

/-- Functions one after the other have results that are alike if both functions do. -/
theorem bind {T : γ → δ → Prop} {x : Except ε α} {y : Except ε β} {f : α → Except ε γ}
    {g : β → Except ε δ} (first : ResultsAlike E Q x y)
    (rest : ∀ {a b}, Q a b → ResultsAlike E T (f a) (g b))
    : ResultsAlike E T (x >>= f) (y >>= g) := by
  cases first with
  | error failed => exact .error failed
  | ok related => exact rest related

/-- Results are alike for any weaker relation of what they are. -/
theorem imp {x : Except ε α} {y : Except ε β} (alike : ResultsAlike E Q x y)
    (weaker : ∀ {a b}, x = .ok a → Q a b → R a b)
    : ResultsAlike E R x y := by
  cases alike with
  | error failed => exact .error failed
  | ok related => exact .ok (weaker rfl related)

/-- Two results that are there are related if they are alike. -/
theorem both_ok {x : Except ε α} {y : Except ε β} (alike : ResultsAlike E Q x y) {a : α} {b : β}
    (left : x = .ok a) (right : y = .ok b)
    : Q a b := by
  subst left right
  cases alike with
  | ok related => exact related

end ResultsAlike

end IncrementalLisp
