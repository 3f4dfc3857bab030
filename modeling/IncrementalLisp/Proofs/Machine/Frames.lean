import IncrementalLisp.Expansion.Expanders
import IncrementalLisp.Proofs.Machine.Specialized
import IncrementalLisp.Proofs.Primitive.Alike

/-! Frames: the bindings under which calls of functions and expanders go on. A call gives values to
the names of its parameters alone, and frames of alike calls are alike.
-/

namespace IncrementalLisp

-----------------------------------------------------------------------------------------
-- Names
-----------------------------------------------------------------------------------------

/-- A call gives values to the parameters of the function alone. -/
theorem Closure.get?_frame {f : Closure} {args : List Value} {s : Symbol}
    (outside : s ∉ f.params ++ f.rest.toList)
    : Bindings.get? (f.frame args) s = Bindings.get? f.captured s := by
  rw [List.mem_append, not_or] at outside
  have unnamed : s ∉ (f.params.zip args).map (·.1) := by
    intro named
    obtain ⟨entry, listed, rfl⟩ := List.mem_map.mp named
    exact outside.1 (List.of_mem_zip listed).1
  have bound := Bindings.get?_foldl_insert (b := f.captured) unnamed
  unfold Closure.frame
  cases rest : f.rest with
  | none => exact bound
  | some r =>
      have differs : s ≠ r := by simpa [rest] using outside.2
      dsimp only
      rw [Bindings.get?_insert, if_neg differs, bound]

/-- A symbol that is no parameter has its captured value in the frame of an expander. -/
theorem UserExpander.get?_frame {u : UserExpander} {k : Expander} {args : List Value} {s : Symbol}
    (outside : s ∉ u.params ++ [u.continuation])
    : Bindings.get? (u.frame k args) s = Bindings.get? u.captured s := by
  rw [List.mem_append, not_or] at outside
  have unnamed : s ∉ (u.params.zip args).map (·.1) := by
    intro named
    obtain ⟨entry, listed, rfl⟩ := List.mem_map.mp named
    exact outside.1 (List.of_mem_zip listed).1
  have differs : s ≠ u.continuation := by simpa using outside.2
  unfold UserExpander.frame
  rw [Bindings.get?_foldl_insert unnamed, Bindings.get?_insert, if_neg differs]

-----------------------------------------------------------------------------------------
-- Alike frames
-----------------------------------------------------------------------------------------

variable {M : Likeness}

/-- Parameters that are bound to values which are alike give bindings that are. Witness: induction
on the parameters.
-/
theorem bound_alike {params : List Symbol} {args args' : List Value} {b b' : Bindings}
    (values : ValuesAlike M args args') (bindings : BindingsAlike M b b')
    : BindingsAlike M ((params.zip args).foldl (fun b (s, v) => Bindings.insert b s v) b)
        ((params.zip args').foldl (fun b (s, v) => Bindings.insert b s v) b') := by
  induction params generalizing args args' b b' with
  | nil => exact bindings
  | cons s rest ih =>
      cases args with
      | nil =>
          obtain rfl := values
          exact bindings
      | cons v others =>
          obtain ⟨w, others', rfl, first, last⟩ := values
          exact ih last (bindings.insert s first)

/-- Alike functions have alike frames on alike arguments. -/
theorem Closure.Alike.frame {f g : Closure} (alike : f.Alike M g) {args args' : List Value}
    (values : ValuesAlike M args args')
    : BindingsAlike M (f.frame args) (g.frame args') := by
  obtain ⟨_, params, rest, body, captured, context⟩ := f
  obtain ⟨_, params', rest', body', captured', context'⟩ := g
  obtain ⟨_, sameParams, sameRest, _, bindings, _⟩ := alike
  dsimp only at sameParams sameRest bindings
  subst sameParams sameRest
  unfold Closure.frame
  dsimp only
  have bound : BindingsAlike M ((params'.zip args).foldl _ captured) _ :=
    bound_alike values bindings
  cases rest' with
  | none => exact bound
  | some r => exact bound.insert r ⟨_, rfl, values.drop params'.length⟩

/-- Expanders that are alike have frames that are, for continuations and arguments that are. -/
theorem UserExpander.Alike.frame {u v : UserExpander} (alike : u.Alike M v) {k k' : Expander}
    (continuations : k.Alike M k') {args args' : List Value} (values : ValuesAlike M args args')
    : BindingsAlike M (u.frame k args) (v.frame k' args') := by
  obtain ⟨_, continuation, params, body, captured⟩ := u
  obtain ⟨_, continuation', params', body', captured'⟩ := v
  obtain ⟨_, sameContinuation, sameParams, _, bindings⟩ := alike
  dsimp only at sameContinuation sameParams bindings
  subst sameContinuation sameParams
  exact bound_alike values (BindingsAlike.insert bindings continuation' ⟨_, rfl, continuations⟩)

end IncrementalLisp
