import IncrementalLisp.Machine.Tower
import IncrementalLisp.Proofs.Machine.Run

/-! Calling a function through the primitive that spreads its last argument. The call comes to the
same value as the direct call with all arguments in place, made while the arguments of the
primitive are at hand, and leaves the same store. An error of the function comes back as its text
alone: what the error was about can no longer be asked.
-/

namespace IncrementalLisp

/-- What the primitive that calls functions makes of the error of a call. -/
def EvalError.applied (e : EvalError)
    : EvalError :=
  .call (.refused Primitive.apply.name (.inCall e.wording))

/-- An error inside a call of apply mentions no symbol that was not found: it is a text. -/
@[simp]
theorem EvalError.unresolved?_applied (e : EvalError)
    : e.applied.unresolved? = none :=
  rfl

/-- The end of a call through the primitive, given the end of the direct call. -/
def Halt.applied : Halt → Halt
  | .error e => .error e.applied
  | .outOfFuel => .outOfFuel

namespace Machine

open Run

variable {level : Nat} {f : Function} {leading items : List Value} {last : Value} {c : ContextId}
  {scope : Scope} {st : Store}

/-- A call of apply spreads the items of its last argument behind the leading ones. -/
theorem spread_of_items (f : Function) (leading : List Value) (spread : last.items? = some items)
    : Primitive.spread (.function f :: (leading ++ [last])) = .ok (f, leading ++ items) := by
  -- the primitive looks at its second argument first, which is a leading one or the last
  have taken : ∀ next more, leading ++ [last] = next :: more →
      Primitive.spread (.function f :: (leading ++ [last])) = .ok (f, leading ++ items) := by
    intro next more split
    have final : (next :: more).getLast (List.cons_ne_nil _ _) = last := by
      simp only [← split, List.getLast_concat]
    have front : (next :: more).dropLast = leading := by
      rw [← split, List.dropLast_concat]
    unfold Primitive.spread
    rw [split]
    dsimp only
    rw [final, front, Collections.itemsArg, spread]
    rfl
  cases leading with
  | nil => exact taken last [] rfl
  | cons next more => exact taken next (more ++ [last]) rfl

/-- A call through the primitive ends as the direct call on one level less, with the text of the
error for the error.
-/
theorem outcome_call_apply (spread : last.items? = some items)
    : let args := .function f :: (leading ++ [last])
      let direct := ((ofLevels level).call (.function f) (leading ++ items) c).outcome
        (scope.holding args) st
      ((ofLevels (level + 1)).call (.function (.builtin .apply)) args c).outcome scope st
        = (direct.1.mapError Halt.applied, direct.2) := by
  change ((ofLevels level).callPrimitive .apply (.function f :: (leading ++ [last])) c).outcome
    scope st = _
  have checked : (Run.ofExcept
      (Primitive.apply.checkArity (.function f :: (leading ++ [last])))).outcome
      scope st = (.ok (), st) := rfl
  unfold callPrimitive
  rw [outcome_bind_of_eq_ok checked]
  dsimp only
  rw [if_pos BEq.rfl, outcome_bind]
  unfold callApply
  rw [spread_of_items f leading spread]
  dsimp only
  rw [outcome_bind, outcome_attempt, outcome_holding]
  rcases ((ofLevels level).call (.function f) (leading ++ items) c).outcome
    (scope.holding (.function f :: (leading ++ [last]))) st with ⟨result, after⟩
  rcases result with halt | v
  · cases halt <;> rfl
  · rfl

/-- A call through the primitive returns just what the direct call returns. -/
theorem call_apply_eq_ok_iff (spread : last.items? = some items) {v : Value} {after : Store}
    : let args := .function f :: (leading ++ [last])
      ((ofLevels (level + 1)).call (.function (.builtin .apply)) args c).outcome scope st
          = (.ok v, after)
        ↔ ((ofLevels level).call (.function f) (leading ++ items) c).outcome
            (scope.holding args) st = (.ok v, after) := by
  dsimp only
  rw [outcome_call_apply spread]
  rcases ((ofLevels level).call (.function f) (leading ++ items) c).outcome
    (scope.holding (.function f :: (leading ++ [last]))) st with ⟨result, other⟩
  cases result with
  | error halt => constructor <;> intro never <;> cases never
  | ok w => exact Iff.rfl

/-- When the direct call fails, the call through the primitive fails with the text of the error, in
which no unresolved symbol can be found.
-/
theorem call_apply_of_error (spread : last.items? = some items) {e : EvalError} {after : Store}
    (failed : ((ofLevels level).call (.function f) (leading ++ items) c).outcome
        (scope.holding (.function f :: (leading ++ [last]))) st = (.error (.error e), after))
    : let args := .function f :: (leading ++ [last])
      ((ofLevels (level + 1)).call (.function (.builtin .apply)) args c).outcome scope st
          = (.error (.error e.applied), after)
        ∧ e.applied.unresolved? = none := by
  dsimp only
  rw [outcome_call_apply spread, failed]
  exact ⟨rfl, rfl⟩

end Machine

end IncrementalLisp
