import IncrementalLisp.Proofs.Forcing.Watched

/-! Every slot is computed at most once and never inside of its own computation, whatever a program
asks of a machine, in whichever order, and however often it is refused.
-/

namespace IncrementalLisp

open Run

-----------------------------------------------------------------------------------------
-- Requests
-----------------------------------------------------------------------------------------

/-- What a program asks of a machine. -/
inductive Request where
  | evaluate (node : Node) (c : ContextId) (b : Bindings)
  | call (callee : Value) (args : List Value) (c : ContextId)
  | expand (e : Expander) (c : ContextId) (form : Value) (k : Expander)
  | define (c : ContextId) (s : Symbol) (node : Node) (b : Bindings)
  | force (c : ContextId) (s : Symbol)
  | run (config : Config) (reading : Reading) (c : ContextId)
  /-- To let go of all contexts but some. -/
  | keep (contexts : List ContextId)

namespace Machine

/-- What a machine does on a request. -/
def answer (m : Machine) : Request → Run Unit
  | .evaluate node c b => do let _ ← m.eval node c b
  | .call callee args c => do let _ ← m.call callee args c
  | .expand e c form k => do let _ ← m.expand e c form k
  | .define c s node b => do let _ ← m.define c s node b
  | .force c s => do let _ ← m.valueOf c s
  | .run config reading c => do let _ ← m.run config reading c
  | .keep contexts => modify (·.keeping contexts)

/-- What a machine does on several requests, none of which stops the others by its failure. -/
def serve (m : Machine) (requests : List Request)
    : Run (List (Except EvalError Unit)) :=
  requests.mapM fun request => attempt (m.answer request)

variable {active : List SlotId} {m m' : Machine} [Machine.Compared (.watching active) m m']

instance watching_answer (request : Request)
    : Run.Compared (.watching active) (m.answer request) (m'.answer request) := by
  cases request with
  | keep contexts =>
      exact ⟨fun _ st _ _ => ⟨rfl, .of_same_values (.single (.keeping st contexts)) rfl, rfl⟩⟩
  | _ =>
      unfold answer
      infer_instance

instance watching_serve (requests : List Request)
    : Run.Compared (.watching active) (m.serve requests) (m'.serve requests) := by
  unfold serve
  infer_instance

-----------------------------------------------------------------------------------------
-- At most once
-----------------------------------------------------------------------------------------

/-- Whatever is asked of a machine in a reached store, the watch finds nothing to raise an alarm
about. So exactly those slots are entered when an activity starts that are being computed around it,
and again after every slot that it asks for; no slot is computed inside of its own computation; and
a slot that is given a value has none before. In the end the same slots are being computed as in the
beginning, and the values of slots stay as they are. A slot that is asked for has the value
afterwards that it was computed to have, or still none if the computation failed, and in both cases
the same slots are being computed as before. Witness: the comparison with the watched machine.
-/
theorem slots_computed_once (alarm : Run Unit) {st : Store} (reached : st.Reached)
    (level callLimit : Nat) (requests : List Request)
    : let served := ((ofLevels level).serve requests).start callLimit st
      ((watched alarm level st.forcing).serve requests).start callLimit st = served
        ∧ served.2.forcing = st.forcing
        ∧ (∀ slot v, st.value? slot = some v → served.2.value? slot = some v)
        ∧ ∀ scope c slot, st.Finds c slot → st.value? slot = none
            → let forced := ((ofLevels level).forceSlot slot c).outcome scope st
              forced.2.value? slot = forced.1.toOption ∧ forced.2.forcing = st.forcing := by
  have machines : Machine.Compared (.watching st.forcing) (watched alarm level st.forcing)
      (ofLevels level) := watching_ofLevels alarm level st.forcing
  have runs : Run.Compared (.watching st.forcing)
      ((watched alarm level st.forcing).serve requests) ((ofLevels level).serve requests) :=
    inferInstance
  obtain ⟨equal, leaves, restores⟩ :=
    runs.compared (.outermost callLimit) st rfl reached.coherent
  exact ⟨equal, restores, fun slot v known => leaves.kept known,
    fun scope c slot found unknown =>
      ⟨value?_forceSlot level scope reached.coherent found unknown,
        follows_forceSlot (P := Store.Restores) ofLevels level found⟩⟩

/-- A slot that is asked for twice, and one whose definition refers to itself: the first one is
given its value, the second one stays without.
-/
theorem quoted_and_circular_slots
    : let st := Store.start .standard
      let v := Symbol.inSpace coreSpace "v"
      let w := Symbol.inSpace coreSpace "w"
      let requests := [
        .define 0 v (.of (.quote (.int 1) false)) [], .define 1 w (.lookup w) [], .force 2 v,
        .force 2 w, .force 2 v]
      let served := ((ofLevels 8).serve requests).start 1 st
      (st.Reached ∧ served.1 = .ok [.ok (), .ok (), .ok (), .error (.cyclicDependency w), .ok ()]
          ∧ served.2.values[SlotId.mk 1 v]? = some (.int 1)
          ∧ served.2.values[SlotId.mk 2 w]? = none)
        ∧ ((watched (Run.fail (.call .oddHashMap)) 8 []).serve requests).start 1 st = served := by
  refine ⟨⟨.start _, by rfl, by rfl, by rfl⟩, ?_⟩
  exact (slots_computed_once (Run.fail (.call .oddHashMap)) (.start .standard) 8 1 _).1

end Machine
end IncrementalLisp
