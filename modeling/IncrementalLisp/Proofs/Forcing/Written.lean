import IncrementalLisp.Proofs.Forcing.Cyclic
import IncrementalLisp.Proofs.Forcing.Tower
import IncrementalLisp.Proofs.Host.Standard
import IncrementalLisp.Proofs.Levels.Tower

/-! The values of symbols in stores of definitions that only read: asking for one always comes to an
end, and one that is defined in a circle is reported.
-/

namespace IncrementalLisp

open Filter Run

namespace Store

/-- (st.Written) says that definitions and look-ups of values lead to the store from one with a
single, empty context, and that what is defined only reads and ignores the symbol of namespaces.
-/
inductive Written : Store → Prop where
  | start {host : Host} (sound : host.Sound) (arrangements : Nat → Arrangement)
      : Written (.start host arrangements)
  | define {st : Store} (written : Written st) (levels : Nat) (c : ContextId) (s : Symbol)
      {node : Node} (b : Bindings) (scope : Scope) (reads : node.OnlyReads)
      (ignores : node.IgnoresSpace)
      : Written (((Machine.ofLevels levels).define c s node b).outcome scope st).2
  | value {st : Store} (written : Written st) (levels : Nat) (c : ContextId) (s : Symbol)
      (scope : Scope)
      : Written (((Machine.ofLevels levels).valueOf c s).outcome scope st).2
  | keeping {st : Store} (written : Written st) (kept : List ContextId)
      : Written (st.keeping kept)

/-- A written store is one that a history leads to. Witness: induction on its definitions. -/
theorem Written.history {st : Store} (written : st.Written)
    : st.History := by
  induction written with
  | start sound arrangements => exact .start sound arrangements
  | define _ levels c s b scope _ _ ih => exact ih.define levels c s _ b scope
  | value _ levels c s scope ih => exact ih.value levels c s scope
  | keeping _ kept ih => exact ih.keeping kept

/-- The slots whose nodes only read. -/
def readings : Set Slot :=
  {slot | slot.node.OnlyReads}

/-- A written store is within the slots that only read. Witness: induction on its definitions, each
of which is carried out on machines that keep within them.
-/
theorem Written.within {st : Store} (written : st.Written)
    : st.Within readings := by
  have forces (levels : Nat) : (Machine.ofLevels levels).Forces readings (fun _ => False) :=
    (Machine.keeps_ofLevels (fun _ reads => reads) levels).1
  induction written with
  | start => exact .start _ _ _
  | @define st _ levels c s node b scope reads ignores ih =>
      have added (space : String)
          : Run.Finishes readings (fun _ => False)
              (modifyGet (·.define c space s node b) : Run ContextId) :=
        ⟨fun within => ⟨within.define ignores (.inr reads)
          (.inr fun _ reads _ => reads), rfl, False.elim⟩⟩
      have defines
          : Run.Finishes readings (fun _ => False) ((Machine.ofLevels levels).define c s node b) := by
        unfold Machine.define
        infer_instance
      exact (defines.finishes ih).1
  | value _ levels c s scope ih => exact (Finishes.finishes (p := fun _ => False) ih).1
  | keeping _ kept ih => exact ih.aside rfl

/-- Asking for the value of a symbol always comes to an end, and to the same on all machines of
enough levels, in every store of definitions that only read and do not refer to the symbol of
namespaces. If no evaluation is needed to know the namespaces of its contexts, then a symbol in a
circle of definitions is reported as circular.
-/
theorem Written.forcing_ends {st : Store} (written : st.Written) (c : ContextId) (s : Symbol)
    (scope : Scope)
    : ∃ o : Except Halt Value × Store,
        o.1 ≠ .error .outOfFuel
          ∧ (∀ᶠ level in atTop, ((Machine.ofLevels level).valueOf c s).outcome scope st = o)
          ∧ ∀ Z, st.Settled → st.Circle c Z → s ∈ Z
              → ∃ z ∈ Z, o.1 = .error (.error (.cyclicDependency z)) := by
  have finite : {slot ∈ readings | slot ∈ st.slots}.Finite :=
    st.slots.finite_toSet.subset fun _ among => among.2
  have within : st.Within {slot ∈ readings | slot ∈ st.slots} :=
    { written.within with
      slots := fun found =>
        (written.within.slots found).imp_right fun among => ⟨among, found.mem_slots⟩ }
  let left (forcing : List SlotId) : Finset SlotId :=
    finite.toFinset.image Slot.id \ forcing.toFinset
  let p (forcing : List SlotId) : Prop := (left forcing).card < (left st.forcing).card + 1
  have forces : ∀ᶠ level in atTop, (Machine.ofLevels level).Forces _ p :=
    Machine.eventually_forces (fun _ among => among.1) finite _
  obtain ⟨level, _⟩ := forces.exists
  have ended : (((Machine.ofLevels level).valueOf c s).outcome scope st).1 ≠ .error .outOfFuel :=
    (Finishes.finishes (p := p) (x := (Machine.ofLevels level).valueOf c s) within).2.2
      (Nat.lt_succ_self _)
  refine ⟨_, ended, ?_, fun Z settled circle member => ?_⟩
  · refine eventually_atTop.mpr ⟨level, fun higher le => ?_⟩
    have below := Machine.below_of_le le
    exact Below.below scope st ended
  · exact (written.history.fails_of_circle settled circle member level scope).resolve_left ended

/-- The store after some definitions, each made in the context that the one before it added. -/
def defining (definitions : List (Symbol × Node))
    : Store :=
  definitions.foldl
    (fun st (s, node) =>
      (((Machine.ofLevels 2).define (st.contexts.size - 1) s node []).outcome (.outermost 1) st).2)
    (.start .standard)

/-- A list of definitions that only read is written, by one definition after the other. -/
theorem written_defining {definitions : List (Symbol × Node)}
    (read : ∀ d ∈ definitions, d.2.OnlyReads ∧ d.2.IgnoresSpace)
    : (defining definitions).Written := by
  have onward (st : Store) (written : st.Written)
      : (definitions.foldl
          (fun st (s, node) => (((Machine.ofLevels 2).define (st.contexts.size - 1) s node
            []).outcome (.outermost 1) st).2) st).Written := by
    induction definitions generalizing st with
    | nil => exact written
    | cons d rest ih =>
        obtain ⟨reads, ignores⟩ := read d List.mem_cons_self
        exact ih (fun d listed => read d (List.mem_cons_of_mem _ listed)) _
          (written.define 2 _ d.1 [] _ reads ignores)
  exact onward _ (.start Host.standard_sound_honest.1 _)

/-- A symbol that is defined as itself. -/
theorem self_reference_reported
    : let a := Symbol.inSpace coreSpace "a"
      let st := Store.defining [(.bare "a", .lookup (.bare "a"))]
      (st.Written ∧ st.Settled ∧ st.Circle 1 {a})
        ∧ ∃ o : Except Halt Value × Store,
            (∀ᶠ level in atTop,
                ((Machine.ofLevels level).valueOf 1 a).outcome (.outermost 1) st = o)
              ∧ o.1 = .error (.error (.cyclicDependency a)) := by
  intro a st
  let self := Node.lookup (.bare "a")
  have written : st.Written := by
    refine written_defining fun d listed => ?_
    obtain rfl := List.mem_singleton.mp listed
    exact ⟨.of rfl nofun, by decide⟩
  have there : st.context 1 = Context.empty.define 1 coreSpace (.bare "a") self [] := rfl
  have settled : st.Settled := by
    intro c
    change ((Store.define (.start .standard) Store.first coreSpace (.bare "a") self []).2.context
      c).space?.isSome
    rw [context_define]
    split
    · rfl
    · rcases c with _ | c <;> rfl
  have circle : st.Circle 1 {a} := by
    constructor
    · rintro _ rfl
      let slot := Context.newSlot 1 coreSpace (.bare "a") self []
      have stored : (st.context 1).slots[Symbol.inSpace coreSpace "a"]? = some slot := rfl
      have meant : (st.context 1).slotIn? coreSpace (.bare "a") = some slot := by
        unfold Context.slotIn?
        exact congrArg (Option.or · _) stored
      exact ⟨slot, .bare "a", slot, stored, .lookup rfl, rfl, meant, rfl⟩
    · rintro _ rfl reaches
      rw [there, ← Context.Indexed.empty.define.mem_transitiveDependents] at reaches
      revert reaches
      decide
  obtain ⟨o, -, same, reported⟩ := Written.forcing_ends written 1 a (.outermost 1)
  obtain ⟨_, rfl, error⟩ := reported {a} settled circle rfl
  exact ⟨⟨written, settled, circle⟩, o, same, error⟩

set_option maxRecDepth 2000 in
/-- A definition that refers to the symbol of namespaces may be in a circle and yet have a value.
Here the value of a symbol of the core begins with the look-up of one of another namespace, and that
of the other with the first: each switch of the namespace renews both, so that none is met again.
-/
theorem circle_through_namespace_has_value
    : let a := Symbol.inSpace coreSpace "a"
      let b := Symbol.inSpace "x" "b"
      let space := Node.lookup (.bare Symbol.currentSpace.name)
      let st := Store.defining [
        (Symbol.currentSpace, .constant (.string "x")),
        (.bare "b", .lookup a),
        (Symbol.currentSpace, .constant .nil),
        (.bare "a", .of (.conditional space (.constant (.int 1)) (.lookup b)))]
      (((Machine.ofLevels 20).valueOf 4 a).outcome (.outermost 1) st).1 = .ok (.int 1) := by
  rfl

end Store

end IncrementalLisp
