import IncrementalLisp.Proofs.Machine.Frames
import IncrementalLisp.Proofs.Simulation.Evaluate

/-! Calls of alike values. A function is called in its own context, which matches that of an alike
function on the names that the call can look up.
-/

namespace IncrementalLisp

open Store Run

-----------------------------------------------------------------------------------------
-- Frames
-----------------------------------------------------------------------------------------

section Frames

variable {M : Likeness}

/-- A symbol that parameters leave without a value had none and is none of them. Witness: induction
on the parameters.
-/
theorem get?_bound {params : List Symbol} {args : List Value} {b : Bindings} {s : Symbol}
    (enough : params.length ≤ args.length)
    (absent
      : Bindings.get? ((params.zip args).foldl (fun b (s, v) => Bindings.insert b s v) b) s = none)
    : b.get? s = none ∧ s ∉ params := by
  induction params generalizing args b with
  | nil => exact ⟨absent, List.not_mem_nil⟩
  | cons t rest ih =>
      cases args with
      | nil => cases enough
      | cons v others =>
          obtain ⟨unbound, outside⟩ := ih (Nat.le_of_succ_le_succ enough) absent
          rw [Bindings.get?_insert] at unbound
          split at unbound
          · cases unbound
          · rename_i differs
            exact ⟨unbound, by simp [differs, outside]⟩

/-- What a call of a function with enough arguments may look up is free in the function, as long as
its parameters have no namespace.
-/
theorem Closure.free_of_frame {f : Closure} {args : List Value} (bare : f.bindsBare)
    (accepted : f.arity.accepts args.length) {s : Symbol}
    (free : (f.body.specialized (f.frame args)).Free (f.frame args) s)
    : f.Free s := by
  obtain ⟨member, unbound⟩ := free
  have inner : s ∈ f.body.dependencies := Node.specialized_within _ _ s member
  have enough : f.params.length ≤ args.length := by
    unfold Closure.arity at accepted
    split at accepted <;> simp [Arity.accepts] at accepted <;> omega
  unfold Closure.bindsBare at bare
  rw [List.all_eq_true] at bare
  unfold Bindings.lexical? at unbound
  split at unbound
  · rename_i qualified
    refine ⟨⟨inner, by rw [Bindings.lexical?, if_pos qualified]⟩, ?_⟩
    intro listed
    have := bare s listed
    simp [qualified] at this
  · rename_i unqualified
    rw [Closure.Free, Node.Free, Bindings.lexical?, if_neg unqualified, List.mem_append]
    unfold Closure.frame at unbound
    dsimp only at unbound
    cases last : f.rest with
    | none =>
        rw [last] at unbound
        obtain ⟨absent, outside⟩ := get?_bound enough unbound
        simp [inner, absent, outside]
    | some r =>
        rw [last] at unbound
        dsimp only at unbound
        rw [Bindings.get?_insert] at unbound
        split at unbound
        · cases unbound
        · rename_i differs
          obtain ⟨absent, outside⟩ := get?_bound enough unbound
          simp [inner, absent, outside, differs]

end Frames

-----------------------------------------------------------------------------------------
-- Calls
-----------------------------------------------------------------------------------------

/-- A call of the primitive that calls functions ends with the result of the function's call, which
goes on while the arguments are at hand.
-/
theorem Machine.called_of_apply {m : Machine} {args : List Value} {c : ContextId} {scope : Scope}
    {st after : Store} {v : Value}
    (ran : (m.callPrimitive .apply args c).outcome scope st = (.ok v, after))
    : ∃ f spread, Primitive.spread args = .ok (f, spread)
        ∧ (m.call (.function f) spread c).outcome (scope.holding args) st = (.ok v, after) := by
  unfold Machine.callPrimitive at ran
  rw [outcome_bind_eq_ok] at ran
  obtain ⟨_, middle, checked, ran⟩ := ran
  have same : middle = st := by
    generalize Primitive.apply.checkArity args = result at checked
    cases result with
    | error e => cases checked
    | ok => cases checked; rfl
  subst same
  rw [if_pos (by rfl), outcome_bind_eq_ok] at ran
  obtain ⟨result, later, called, ran⟩ := ran
  cases result with
  | error fault => cases ran
  | ok w =>
      obtain ⟨rfl, rfl⟩ : w = v ∧ later = after := by simpa using ran
      unfold Machine.callApply at called
      generalize Primitive.spread args = spread at called ⊢
      cases spread with
      | error fault => cases called
      | ok pair =>
          obtain ⟨f, spread⟩ := pair
          refine ⟨f, spread, rfl, ?_⟩
          dsimp only at called
          rw [outcome_bind_eq_ok] at called
          obtain ⟨result, after, attempted, called⟩ := called
          rw [outcome_attempt, outcome_holding] at attempted
          rcases step : (m.call (.function f) spread c).outcome (scope.holding args) middle
            with ⟨outcome, ended⟩
          rw [step] at attempted
          cases outcome with
          | ok u =>
              obtain ⟨rfl, rfl⟩ : Except.ok u = result ∧ ended = after := by simpa using attempted
              cases called
              rfl
          | error h =>
              cases h with
              | outOfFuel => cases attempted
              | error e =>
                  cases attempted
                  cases called

variable {left right : Store} {m m' : Machine} {N N' : Nat} {c d : ContextId}

namespace Machine.Simulates

variable [m.Follows Leads] [m'.Follows Leads]

omit [m.Follows Leads] [m'.Follows Leads] in
/-- Calls of tracked primitives simulate each other, by the cases of those that do more than
compute.
-/
theorem callPrimitive (machines : m.Simulates left right m') (stores : left.Comparable right)
    {p : Primitive} {args args' : List Value}
    (values : ValuesAlike (left.Matches right N N') args args')
    (tracked : p.isTracked args')
    : Run.Simulates left right N N' (fun n n' v w => v.Alike (left.Matches right n n') w)
        (m.callPrimitive p args c) (m'.callPrimitive p args' d) := by
  by_cases calls : p = .apply
  · subst calls
    constructor
    intro scope scope' st st' after after' v w bound bound' recalls recalls' ran ran' leads leads'
    obtain ⟨f, spread, given, called⟩ := called_of_apply ran
    obtain ⟨f', spread', given', called'⟩ := called_of_apply ran'
    obtain ⟨functions, arguments⟩ := (spread_alike values).both_ok given given'
    have callees : (Value.function f).Alike (left.Matches right N N') (.function f') :=
      ⟨f', rfl, functions⟩
    exact (machines.call callees arguments).ends bound bound' recalls recalls' called called' leads
      leads'
  · have other : (p == .apply) = false := by simpa using calls
    have computed (a : Arrangement) (n n' : Nat) (bound : N ≤ n) (bound' : N' ≤ n')
        : Answers (left.Matches right n n') (Value.Alike (left.Matches right n n'))
            (p.compute a args) (p.compute a args') :=
      Primitive.compute_alike (values.mono (Matched.within id bound bound')) (.inl tracked)
    have follows := follows_answered (P := Leads) p
    unfold Machine.callPrimitive
    rw [other]
    simp only [Bool.false_eq_true, if_false, pure_bind]
    refine Simulates.aside.bind fun bound bound' _ => Simulates.aside.bind fun grows grows' _ => ?_
    refine (arrangementIf stores _).bind fun {_ _ a a'} widens widens' same => ?_
    obtain rfl : a' = a := same
    have related := computed a' _ _ (Nat.le_trans bound (Nat.le_trans grows widens))
      (Nat.le_trans bound' (Nat.le_trans grows' widens'))
    generalize p.compute a' args = r, p.compute a' args' = r' at related ⊢
    cases r with
    | error fault => exact .of_left (fail_ne_ok _)
    | ok v =>
        cases r' with
        | error fault => exact .of_right (fail_ne_ok _)
        | ok w =>
            exact .pure fun _ _ onward onward' =>
              (related.both_ok rfl rfl).mono (Matched.within id onward onward')

/-- A call of a function simulates that of an alike function: its body is evaluated in contexts
that match on what the call can look up.
-/
theorem callClosure (machines : m.Simulates left right m') {f g : Closure}
    (alike : f.Alike (left.Matches right N N') g) {args args' : List Value}
    (values : ValuesAlike (left.Matches right N N') args args') (bare : g.bindsBare)
    : Run.Simulates left right N N' (fun n n' v w => v.Alike (left.Matches right n n') w)
        (m.callClosure f args) (m'.callClosure g args') := by
  have frames := alike.frame values
  have bodies : f.body.Alike (left.Matches right N N') g.body := by
    obtain ⟨_, _, _, _, _, _⟩ := f
    exact alike.2.2.2.1.resolve_right id
  have contexts : left.Matches right N N' f.Free f.context g.context := by
    obtain ⟨_, _, _, _, _, _⟩ := f
    exact alike.2.2.2.2.2
  have params : g.params = f.params ∧ g.rest = f.rest := by
    obtain ⟨_, _, _, _, _, _⟩ := f
    exact ⟨alike.2.1, alike.2.2.1⟩
  have arity : g.arity = f.arity := by
    unfold Closure.arity
    rw [params.1, params.2]
  have bare : f.bindsBare := by
    unfold Closure.bindsBare at bare ⊢
    rwa [params.1, params.2] at bare
  unfold Machine.callClosure
  rw [arity, values.length_eq]
  split
  · exact .of_left (fail_ne_ok _)
  · rename_i accepted
    have accepted : f.arity.accepts args.length := by simpa using accepted
    refine Simulates.insideCall (machines.compute (bodies.specialized frames) frames ?_)
    exact contexts.fewer fun s => Closure.free_of_frame bare accepted

/-- A call from scratch repeats that of an alike value. Witness: by the value that is called. -/
theorem callTracked (machines : m.Simulates left right m') (stores : left.Comparable right)
    {callee callee' : Value} {args args' : List Value}
    (callees : callee.Alike (left.Matches right N N') callee')
    (values : ValuesAlike (left.Matches right N N') args args')
    : Run.Simulates left right N N' (fun n n' v w => v.Alike (left.Matches right n n') w)
        (m.callValue callee args c) (m'.callTracked callee' args' d) := by
  cases callee with
  | function f =>
      obtain ⟨g, rfl, same⟩ := callees
      cases f with
      | builtin p =>
          obtain rfl := same
          unfold Machine.callTracked
          dsimp only
          split
          · exact machines.callPrimitive stores values ‹_›
          · exact .of_right exhausted_ne_ok
      | closure f =>
          obtain ⟨g, rfl, same⟩ := same
          unfold Machine.callTracked
          dsimp only
          split
          · exact machines.callClosure same values ‹_›
          · exact .of_right exhausted_ne_ok
  | expander e =>
      obtain ⟨e', rfl, _⟩ := callees
      exact .of_right exhausted_ne_ok
  | _ => exact .of_left (fail_ne_ok _)

end Machine.Simulates

end IncrementalLisp
