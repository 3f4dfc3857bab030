import IncrementalLisp.Machine.Call
import IncrementalLisp.Machine.Force
import IncrementalLisp.Proofs.View.Evaluate

/-! Calls of values and computations of slots that look alike, on machines that respect the view.
-/

namespace IncrementalLisp

variable {V : View}

-----------------------------------------------------------------------------------------
-- Frames
-----------------------------------------------------------------------------------------

section Frames

variable {f g : Closure} (same : f.seen V = g.seen V) {args args' : List Value}
  (values : args.map (Value.seen V) = args'.map (Value.seen V))
include same

/-- Closures that are seen alike take the same numbers of arguments. -/
theorem Closure.arity_same
    : f.arity = g.arity := by
  cases f
  cases g
  simp only [seen, Closure.mk.injEq] at same
  obtain ⟨-, rfl, rfl, -⟩ := same
  rfl

include values

/-- To the body of a function its frame for arguments that look alike looks alike. -/
theorem Closure.frame_same
    : Bindings.seen V f.body.reads (f.frame args) = Bindings.seen V f.body.reads (g.frame args') := by
  cases f with | mk _ params rest body captured _ =>
  cases g
  simp only [seen, seenCaptured_eq_seen, Closure.mk.injEq] at same
  obtain ⟨-, rfl, rfl, bodies, bindings, -⟩ := same
  rw [← Node.reads_same bodies] at bindings
  have bound := Bindings.bound_same params values bindings
  unfold frame
  cases rest with
  | none => exact bound
  | some r =>
      have more : (Value.vector (args.drop params.length)).seen V
          = (Value.vector (args'.drop params.length)).seen V := by
        simp only [Value.seen, seenAll_eq_map, List.map_drop, values]
      exact Bindings.insert_same more (Bindings.same_of_fewer bound fun s read => by simp_all)

end Frames

-----------------------------------------------------------------------------------------
-- Calls
-----------------------------------------------------------------------------------------

namespace Machine.Respects

open Run (Agree)

variable {m : Machine} (machines : m.Respects V)

/-- Nodes that are seen alike are so as values, by their shapes. -/
theorem asValue {n n' : Node} (same : n.seen V = n'.seen V)
    : Agree V (Value.seen V) n.asValue n'.asValue := by
  obtain ⟨shape, recorded, source, identity⟩ := n
  obtain ⟨shape', recorded', source', identity'⟩ := n'
  simp only [Node.seen, Node.mk.injEq] at same
  obtain ⟨shapes, rfl, places, rfl⟩ := same
  cases identity with
  | some i => exact .pure (by simp [Node.seen, shapes, places])
  | none => exact Run.Agree.newIdentity.bindEq fun _ => .pure (by simp [Node.seen, shapes, places])

/-- What a primitive answers is its value, or the error of its call. -/
theorem answered (p : Primitive) {r r' : Except Fault Value}
    : seenResult V r = seenResult V r'
      → Agree V (Value.seen V)
        (match r with
          | .ok v => pure v
          | .error fault => Run.fail (.call (.refused p.name fault)))
        (match r' with
          | .ok v => pure v
          | .error fault => Run.fail (.call (.refused p.name fault))) := by
  intro same
  cases r <;> cases r' <;> simp at same
  · exact .fail (by simp [same])
  · exact .pure same

section Calls

include machines

variable {args args' : List Value}
  (values : args.map (Value.seen V) = args'.map (Value.seen V)) (c : ContextId)

/-- Calls of closures that are seen alike agree: their bodies do, under frames that are seen alike.
-/
theorem callClosure {f g : Closure} (same : f.seen V = g.seen V)
    (values : args.map (Value.seen V) = args'.map (Value.seen V))
    : Agree V (Value.seen V) (m.callClosure f args) (m.callClosure g args') := by
  have count : args.length = args'.length := (forall₂_of_map_eq values).length_eq
  have frames := Closure.frame_same same values
  have bodies : f.body.seen V = g.body.seen V := by rw [← f.body_seen, same, g.body_seen]
  have context : f.context = g.context := by rw [← f.context_seen, same, g.context_seen]
  unfold Machine.callClosure
  dsimp only
  rw [Closure.arity_same same, count, context]
  split
  · exact .fail rfl
  · exact (machines.compute (Node.specialized_same bodies frames)
      (Node.bindings_specialized frames) g.context).insideCall

include values

/-- The primitive that calls a function. An error of the function is reported by its text, of which
the view sees the same.
-/
theorem callApply (p : Primitive)
    : Agree V (Value.seen V)
        (m.callApply args c >>= fun result => match result with
          | .ok v => pure v
          | .error fault => Run.fail (.call (.refused p.name fault)))
        (m.callApply args' c >>= fun result => match result with
          | .ok v => pure v
          | .error fault => Run.fail (.call (.refused p.name fault))) := by
  have prepared : seenAnswer V (Primitive.seenCall V) (Primitive.spread args)
      = seenAnswer V (Primitive.seenCall V) (Primitive.spread args') := by
    rw [← Primitive.spread_seen, values, Primitive.spread_seen]
  unfold Machine.callApply
  generalize Primitive.spread args = r, Primitive.spread args' = r' at prepared ⊢
  rcases r with fault | ⟨f, spread⟩ <;> rcases r' with fault' | ⟨f', spread'⟩ <;>
    simp [Primitive.seenCall] at prepared
  · have refusals : seenResult V (.error fault) = seenResult V (.error fault') :=
      congrArg Except.error prepared
    exact answered p refusals
  · have functions : (Value.function f).seen V = (Value.function f').seen V :=
      congrArg Value.function prepared.1
    simp only [bind_assoc]
    have called := (machines.call c functions prepared.2).holdingSeen values
    refine called.attempt (fun {v w} same => ?_) fun same => ?_
    · have results : seenResult V (.ok v) = seenResult V (.ok w) := congrArg Except.ok same
      exact answered p results
    · refine .fail ?_
      simp [Fault.seen, EvalError.wording_same same]

/-- Calls of a primitive agree, by the cases of those that do more than compute. -/
theorem callPrimitive (p : Primitive)
    : Agree V (Value.seen V) (m.callPrimitive p args c) (m.callPrimitive p args' c) := by
  have count : args.length = args'.length := (forall₂_of_map_eq values).length_eq
  have output : p.output args = p.output args' := by
    rw [← p.output_seen (V := V), values, p.output_seen]
  have result (a : Arrangement)
      : seenResult V (p.compute a args) = seenResult V (p.compute a args') := by
    rw [← Primitive.compute_seen, values, Primitive.compute_seen]
  have checked : p.checkArity args = p.checkArity args' := by
    unfold Primitive.checkArity
    rw [count]
  unfold Machine.callPrimitive
  rw [checked, output]
  have same : Agree V id (Run.ofExcept (p.checkArity args')) (Run.ofExcept (p.checkArity args')) :=
    .ofExcept rfl
  refine same.bindEq fun _ => ?_
  dsimp only
  split
  · exact machines.callApply values c p
  · refine (Run.Agree.write _).bindEq fun _ => ?_
    exact (Run.Agree.arrangementIf _).bindEq fun a => answered p (result a)

/-- Calls of expanders as functions agree, by their kind. -/
theorem callExpander {e e' : Expander} (same : e.seen V = e'.seen V)
    : Agree V (Value.seen V) (m.callExpander e args c) (m.callExpander e' args' c) := by
  rcases forall₂_of_map_eq values with _ | ⟨form, _ | ⟨_, rest⟩⟩
  · exact .fail rfl
  · refine (machines.expand c same form ?_).bind asValue
    cases e <;> cases e' <;> simp_all
  · exact .fail (by simp [rest.length_eq])

/-- Calls of any values agree, by the cases of the callee. -/
theorem callValue {f f' : Value} (same : f.seen V = f'.seen V)
    : Agree V (Value.seen V) (m.callValue f args c) (m.callValue f' args' c) := by
  cases Value.looksLike same with
  | @function g g' functions =>
      cases g <;> cases g' <;> simp at functions
      · subst functions
        exact machines.callPrimitive values c _
      · exact machines.callClosure functions values
  | expander expanders => exact machines.callExpander values c expanders
  | _ => exact .fail rfl

end Calls

-----------------------------------------------------------------------------------------
-- Slots
-----------------------------------------------------------------------------------------

section Slots

include machines

variable {slot slot' : Slot} (same : slot.seen V = slot'.seen V) (finder : ContextId)
include same

/-- Slots that are seen alike are computed in the same context. -/
theorem contextOf
    : Agree V id (m.contextOf slot finder) (m.contextOf slot' finder) := by
  have owner : slot.owner = slot'.owner := congrArg SlotId.owner (Slot.id_same same)
  unfold Machine.contextOf
  rw [owner, Slot.space_same same]
  refine (Run.Agree.isLiving slot'.owner).bindEq fun lives => ?_
  refine (machines.currentSpace _).bindEq fun space => ?_
  split
  · exact .pure rfl
  · exact machines.define rfl rfl _ Symbol.currentSpace

/-- The values that they compute agree. -/
theorem computeSlot
    : Agree V (Value.seen V) (m.computeSlot slot finder) (m.computeSlot slot' finder) := by
  have nodes := Slot.node_same same
  have constants : Option.Rel (fun v w => v.seen V = w.seen V) slot.node.constant?
      slot'.node.constant? := by
    refine rel_of_map_eq ?_
    rw [← Node.constant?_seen, nodes, Node.constant?_seen]
  unfold Machine.computeSlot
  generalize slot.node.constant? = o, slot'.node.constant? = o' at constants ⊢
  cases constants with
  | some same => exact .pure same
  | none =>
      exact .insideSlot same ((machines.contextOf same finder).bindEq fun c =>
        machines.compute nodes (Slot.bindings_same same) c)

/-- So do those that they have from then on. -/
theorem forceSlot
    : Agree V (Value.seen V) (m.forceSlot slot finder) (m.forceSlot slot' finder) := by
  refine .get fun {st st'} stores _ => ?_
  have known : Option.Rel (fun v w => v.seen V = w.seen V) (st.value? slot) (st'.value? slot') := by
    refine rel_of_map_eq ?_
    rw [← st.value?_seen, stores, same, st'.value?_seen]
  generalize st.value? slot = o, st'.value? slot' = o' at known ⊢
  cases known with
  | some values => exact .pure values
  | none =>
      refine (machines.computeSlot same finder).bind fun {v w} values => ?_
      have remembered : Agree V id (modify (·.remember slot v) : Run Unit)
          (modify (·.remember slot' w)) := by
        refine .modify fun {_ st st'} stores fits => ⟨?_, fits.host, fits.kept⟩
        rw [← st.remember_seen, stores, same, values, st'.remember_seen]
      exact remembered.bindEq fun _ => .pure values

end Slots

end Machine.Respects

end IncrementalLisp
