import IncrementalLisp.Machine.Call
import IncrementalLisp.Machine.Force
import IncrementalLisp.Proofs.Machine.Frames
import IncrementalLisp.Proofs.Mirror.Evaluate

/-! Calls of values and computations of slots that differ only by a pass.
-/

namespace IncrementalLisp

variable {F : Filter Nat} {P : Pass}

/-- Alike values are written as the same text. -/
theorem Primitive.output_eq {M : Likeness} (p : Primitive) {args args' : List Value}
    (alike : ValuesAlike M args args')
    : p.output args' = p.output args := by
  have texts : args'.map Value.text = args.map Value.text := by
    rw [valuesAlike_iff_forall₂] at alike
    induction alike with
    | nil => rfl
    | cons first _ ih => rw [List.map_cons, List.map_cons, first.text_eq, ih]
  unfold Primitive.output
  split <;> simp only [texts]

/-- Arguments that are alike are as many, so both are accepted or refused alike. -/
theorem Primitive.checkArity_alike {M : Likeness} (p : Primitive) {args args' : List Value}
    (alike : ValuesAlike M args args')
    : ResultsAlike (EvalError.Alike M) (fun _ _ => True) (p.checkArity args)
      (p.checkArity args') := by
  unfold Primitive.checkArity
  rw [alike.length_eq]
  split
  · exact .ok trivial
  · split
    · exact .ok trivial
    · exact .error rfl

/-- The parts of closures that are alike are alike. -/
theorem Closure.Alike.parts {f f' : Closure} (alike : f.Alike P f')
    : f'.params = f.params ∧ f'.rest = f.rest
      ∧ P.Stands (f.params ++ f.rest.toList) f.captured f.body f'.captured f'.body
      ∧ BindingsAlike P f.captured f'.captured ∧ f'.context = f.context := by
  obtain ⟨_, _, _, _, _, _⟩ := f
  exact alike.2

/-- So are those of expanders that are. -/
theorem UserExpander.Alike.parts {u u' : UserExpander} (alike : u.Alike P u')
    : u'.continuation = u.continuation ∧ u'.params = u.params
      ∧ P.Stands (u.params ++ [u.continuation]) u.captured u.body u'.captured u'.body
      ∧ BindingsAlike P u.captured u'.captured := by
  obtain ⟨_, _, _, _, _⟩ := u
  exact alike.2

/-- The expander for the parts of a form on which an expander is called. -/
theorem continuation_alike {M : Likeness} {e e' : Expander}
    : e.Alike M e'
      → Expander.Alike M
          (match e with
            | .initial n => .initial n
            | _ => .initial defaultExpansionLimit)
          (match e' with
            | .initial n => .initial n
            | _ => .initial defaultExpansionLimit) := by
  intro alike
  cases e with
  | initial =>
      obtain ⟨other, rfl, counts⟩ := alike
      exact ⟨other, rfl, counts⟩
  | form =>
      obtain rfl := alike
      exact ⟨_, rfl, M.counted _⟩
  | ofUser | ofMacro =>
      obtain ⟨_, rfl, _⟩ := alike
      exact ⟨_, rfl, M.counted _⟩

namespace Machine.Mirrored

open Run

variable {m : Machine} (machines : m.Mirrored F P) {args args' : List Value}

/-- Calls of functions whose bodies stand for each other. Witness: since the values of names that
are put into a body do not matter to its evaluation, both calls evaluate related programs.
-/
theorem callClosure (machines : m.Mirrored F P) (seen : m.Unspecialized) {f f' : Closure}
    (alike : f.Alike P f') (values : ValuesAlike P args args')
    : Run.Mirrored F P (Value.Alike P) (m.callClosure f args)
        fun k => (ofLevels k).callClosure f' args' := by
  obtain ⟨params, rest, bodies, bindings, context⟩ := alike.parts
  have arity : f'.arity = f.arity := by
    unfold Closure.arity
    rw [params, rest]
  obtain ⟨p, p', related, evaluated, evaluated'⟩ := bodies.evaluated bindings
  have left : m.compute (f.body.specialized (f.frame args)) f.context (f.frame args)
      = m.compute p f.context (f.frame args) := by
    rw [seen.compute (.refl _), evaluated seen _ fun s => Closure.get?_frame]
  have right (k : Nat)
      : (ofLevels k).compute (f'.body.specialized (f'.frame args')) f.context (f'.frame args')
        = (ofLevels k).compute p' f.context (f'.frame args') := by
    have seen := unspecialized_ofLevels k
    rw [← params, ← rest] at evaluated'
    rw [seen.compute (.refl _), evaluated' seen _ fun s => Closure.get?_frame]
  unfold Machine.callClosure
  dsimp only
  rw [arity, values.length_eq, context, left]
  simp only [right]
  split
  · exact .fail rfl
  · exact (machines.compute related (alike.frame values) f.context).insideCall

/-- What a primitive answers is its value, or the error of its call. -/
theorem answered (p : Primitive) {x y : Except Fault Value}
    : Answers P (Value.Alike P) x y
      → Run.Mirrored F P (Value.Alike P)
          (match x with
            | .ok v => pure v
            | .error fault => Run.fail (.call (.refused p.name fault)))
          fun _ => match y with
            | .ok v => pure v
            | .error fault => Run.fail (.call (.refused p.name fault)) := by
  intro answers
  cases answers with
  | ok same => exact .pure same
  | error faults => exact .fail ⟨_, rfl, _, rfl, faults⟩

include machines in
/-- The primitive that calls a function. The error of the function is its own error then, so that
none goes unnoticed.
-/
theorem callApply (p : Primitive) (values : ValuesAlike P args args') (c : ContextId)
    : Run.Mirrored F P (Value.Alike P)
        (m.callApply args c >>= fun result => match result with
          | .ok v => pure v
          | .error fault => Run.fail (.call (.refused p.name fault)))
        fun k => (ofLevels k).callApply args' c >>= fun result => match result with
          | .ok v => pure v
          | .error fault => Run.fail (.call (.refused p.name fault)) := by
  unfold Machine.callApply
  have follows := follows_answered (P := Store.Grows) p
  have spread := spread_alike values
  generalize Primitive.spread args = x, Primitive.spread args' = y at spread ⊢
  cases spread with
  | error faults => exact (Run.Mirrored.pure (.error faults)).bind (answered p)
  | @ok x y same =>
      obtain ⟨f, spread⟩ := x
      obtain ⟨g, spread'⟩ := y
      obtain ⟨callees, spreads⟩ : f.Alike P g ∧ ValuesAlike P spread spread' := same
      have called : Value.Alike P (.function f) (.function g) := ⟨_, rfl, callees⟩
      simp only [bind_assoc]
      refine ((machines.call c called spreads).holdingAlike values).attempt
        (fun _ => by split <;> infer_instance) (fun results => ?_) ?_
      · cases results with
        | ok same => exact (Run.Mirrored.pure (.ok same)).bind (answered p)
        | error failed =>
            refine (Run.Mirrored.pure (.error ?_)).bind (answered p)
            rw [failed.wording_eq]
            rfl
      · intro _ scope st e after v _ never
        cases never

variable [m.Steady]

include machines in
/-- A call of a primitive is mirrored, by the cases of those that do more than compute. -/
theorem callPrimitive (p : Primitive) (values : ValuesAlike P args args') (c : ContextId)
    : Run.Mirrored F P (Value.Alike P) (m.callPrimitive p args c)
        fun k => (ofLevels k).callPrimitive p args' c := by
  have follows := follows_answered (P := Store.Grows) p
  refine (Run.Mirrored.ofExcept (p.checkArity_alike values)).bind fun _ => ?_
  dsimp only
  split
  · exact machines.callApply p values c
  · refine (Run.Mirrored.write (p.output_eq values)).bind fun _ => ?_
    refine (Run.Mirrored.arrangementIf _).bind fun {a a'} same => ?_
    obtain rfl : a' = a := same
    exact (Run.Mirrored.pure (Primitive.compute_alike values (.inr P.exact))).bind (answered p)

/-- A node as a value is mirrored, by its shape. -/
theorem asValue {n n' : Node} (alike : n.Alike P n')
    : Run.Mirrored F P (Value.Alike P) n.asValue fun _ => n'.asValue := by
  obtain ⟨shape, recorded, source, identity⟩ := n
  obtain ⟨shape', recorded', source', identity'⟩ := n'
  obtain ⟨shapes, records, rfl⟩ := alike
  unfold Node.asValue
  cases identity' with
  | some i => exact .pure ⟨_, rfl, shapes, records, rfl⟩
  | none =>
      exact Run.Mirrored.newIdentity.bind fun same =>
        .pure ⟨_, rfl, shapes, records, congrArg some same⟩

omit [m.Steady] in
include machines in
/-- A call of an expander as a function is mirrored, by its kind. -/
theorem callExpander {e e' : Expander} (alike : e.Alike P e') (values : ValuesAlike P args args')
    (c : ContextId)
    : Run.Mirrored F P (Value.Alike P) (m.callExpander e args c)
        fun k => (ofLevels k).callExpander e' args' c := by
  rw [valuesAlike_iff_forall₂] at values
  rcases values with _ | ⟨form, _ | ⟨_, rest⟩⟩
  · exact .fail rfl
  · exact (machines.expand c alike form (continuation_alike alike)).bind asValue
  · unfold Machine.callExpander
    dsimp only [List.length_cons]
    rw [rest.length_eq]
    exact .fail rfl

include machines in
/-- A call of any value is mirrored, by the cases of the callee. -/
theorem callValue (seen : m.Unspecialized) {f f' : Value} (alike : f.Alike P f')
    (values : ValuesAlike P args args') (c : ContextId)
    : Run.Mirrored F P (Value.Alike P) (m.callValue f args c)
        fun k => (ofLevels k).callValue f' args' c := by
  have refused := wrongType_alike "function" alike
  cases f with
  | function g =>
      obtain ⟨g', rfl, functions⟩ := alike
      cases g with
      | builtin p =>
          obtain rfl := functions
          exact machines.callPrimitive p values c
      | closure =>
          obtain ⟨_, rfl, closures⟩ := functions
          exact machines.callClosure seen closures values
  | expander =>
      obtain ⟨_, rfl, expanders⟩ := alike
      exact machines.callExpander expanders values c
  | list | vector | map | set | node =>
      obtain ⟨_, rfl, _⟩ := alike
      exact .fail refused
  | _ =>
      obtain rfl := alike
      exact .fail refused

-----------------------------------------------------------------------------------------
-- Slots
-----------------------------------------------------------------------------------------

section Slots

include machines

variable {slot other : Slot} (slots : slot.Alike P other)
include slots

/-- Slots that are alike are computed in the same context. -/
theorem contextOf (finder : ContextId)
    : Run.Mirrored F P (fun c d => d = c) (m.contextOf slot finder)
        fun k => (ofLevels k).contextOf other finder := by
  unfold Machine.contextOf
  rw [slots.owner, slots.space]
  refine (Run.Mirrored.isLiving slot.owner).bind fun {lives _} same => ?_
  subst same
  refine (machines.currentSpace _).bind fun {space _} same => ?_
  subst same
  split
  · exact .pure rfl
  · exact machines.define (.refl P.exact _) (.refl P.exact _) _ _

/-- The values that they compute are alike, in the same context and under bindings that are. -/
theorem computeSlot (finder : ContextId)
    : Run.Mirrored F P (Value.Alike P) (m.computeSlot slot finder)
        fun k => (ofLevels k).computeSlot other finder := by
  have constant := slots.node.constant?
  unfold Machine.computeSlot
  generalize slot.node.constant? = o, other.node.constant? = o' at constant ⊢
  cases constant with
  | some same => exact .pure same
  | none =>
      refine .insideSlot slots ((machines.contextOf slots finder).bind fun {_ c} same => ?_)
      subst same
      exact machines.compute (.inl slots.node) slots.bindings c

/-- So are the values that they have from then on. -/
theorem forceSlot (finder : ContextId)
    : Run.Mirrored F P (Value.Alike P) (m.forceSlot slot finder)
        fun k => (ofLevels k).forceSlot other finder := by
  refine Run.Mirrored.get.andThen (fun _ => by split <;> infer_instance) fun {st st'} stores => ?_
  have both := stores.value? slots
  generalize st.value? slot = o, st'.value? other = o' at both ⊢
  cases both with
  | some same => exact .pure same
  | none =>
      refine (machines.computeSlot slots finder).bind fun same => ?_
      exact (Run.Mirrored.modify fun later => later.remember slots same).bind fun _ => .pure same

end Slots

end Machine.Mirrored

end IncrementalLisp
