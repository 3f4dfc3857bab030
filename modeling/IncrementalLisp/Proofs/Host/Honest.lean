import IncrementalLisp.Proofs.Host.Members
import IncrementalLisp.Proofs.Primitive.Older

/-! Hosts that make up no references: what a member of a type returns refers only to contexts that
its arguments refer to.
-/

namespace IncrementalLisp

/-- (m.Honest) says that results of the member refer to no more than its arguments do. -/
def Member.Honest (m : Member)
    : Prop :=
  ∀ (N : Nat) (args : List Value), Among (· < N) (contextsOfAll args) → Gives N (m.run args)

/-- A type of honest members. -/
abbrev HostType.Honest (t : HostType)
    : Prop :=
  t.All Member.Honest

/-- A host of honest types. -/
def Host.Honest (h : Host)
    : Prop :=
  ∀ t ∈ h.types, t.Honest

namespace Host

variable {h : Host} {N : Nat}

/-- An honest member gives values that refer to what its arguments do. -/
theorem gives_call {m : Member} (honest : m.Honest) {args : List Value}
    (older : Among (· < N) (contextsOfAll args))
    : Gives N (m.call args) := by
  have ran : Gives N (Member.call.ran m args) := by
    intro v result
    unfold Member.call.ran at result
    cases answer : m.run args with
    | error fault => simp [answer, Except.mapError] at result
    | ok w =>
        rw [answer] at result
        rw [← Except.ok.inj result]
        exact honest N args older w answer
  unfold Member.call
  split
  · split
    · exact ran
    · exact .error
  · exact ran

/-- What a sound and honest host answers to a call refers to no more than the call does. -/
theorem Honest.gives_invoke (honest : h.Honest) (sound : h.Sound) {target : Value}
    {member : String} {args : List Value} (older : Among (· < N) target.contexts)
    (rest : Among (· < N) (contextsOfAll args))
    : Gives N (h.invoke target member args).1 := by
  rw [sound.answer_on_value]
  split
  · exact .error
  · rename_i t found
    split
    · rename_i m selected
      apply gives_call (all_of_member? honest (mem_of_typeOf? found) selected)
      rw [contextsOfAll, among_append]
      exact ⟨older, rest⟩
    · exact .error

/-- An honest host does so for members of types, since its cache keeps what is selected afresh. -/
theorem Honest.gives_invokeStatic (honest : h.Honest) (sound : h.Sound) {type member : String}
    {args : List Value} (older : Among (· < N) (contextsOfAll args))
    : Gives N (h.invokeStatic type member args).1 := by
  rw [sound.answer_on_type]
  split
  · exact .error
  · rename_i t found
    split
    · rename_i m selected
      exact gives_call (all_of_member? honest (mem_of_type? found) selected) older
    · exact .error

/-- A cast gives the value itself or a number, which refers to nothing. -/
theorem gives_cast {type : String} {v : Value} (older : Among (· < N) v.contexts)
    : Gives N (h.cast type v) := by
  unfold Host.cast
  split
  · exact .ok older
  · split
    · rename_i w converted
      refine .ok (Value.among_of_plain ?_)
      rw [converted?.eq_def] at converted
      split at converted
      · cases converted; rfl
      · cases converted; rfl
      · cases converted; rfl
      · rename_i n _
        by_cases valid : 0 ≤ n.toInt ∧ n.toInt.toNat.isValidChar
        · rw [dif_pos valid] at converted
          cases converted; rfl
        · rw [dif_neg valid] at converted
          cases converted
      · cases converted
    · exact .error

/-- Honesty is about the types alone, so it stays while these do. -/
theorem Honest.congr {later : Host} (honest : h.Honest) (same : later.types = h.types)
    : later.Honest := by
  unfold Host.Honest
  rw [same]
  exact honest

end Host
end IncrementalLisp
