import IncrementalLisp.Proofs.Mirror.Tower
import IncrementalLisp.Proofs.Node.Simplified
import IncrementalLisp.Session.Compile

/-! The bounds on nested expansions and on nested calls are only bounds. What a text leads to under
some bounds it also leads to under wider ones, on the machine of the same level: the two runs go
step by step together, and differ only in the numbers of expansions that are left to the initial
expander, wherever these are kept. An error that one of the bounds causes ends the whole run, as
long as the namespaces of contexts are constant, since only a failure to compute a namespace is
passed over in silence.
-/

namespace IncrementalLisp

open Filter Machine

-----------------------------------------------------------------------------------------
-- Hosts of reached stores
-----------------------------------------------------------------------------------------

/-- A blind host is blind in its next state, since its types stay. -/
theorem Host.Blind.next {h later : Host} (blind : h.Blind) (next : h.Next later)
    : later.Blind := by
  rcases next with rfl | ⟨t, known, name, count, dispatch, rfl⟩
  · exact blind
  · exact (blind.resolve known name count dispatch).1

/-- A host that does not look into functions never comes to do so. -/
theorem Store.Leads.blind {st after : Store} (leads : st.Leads after) (blind : st.host.Blind)
    : after.host.Blind := by
  induction leads with
  | refl => exact blind
  | tail _ last ih =>
      cases last with
      | host next => exact ih.next next
      | _ => exact ih

-----------------------------------------------------------------------------------------
-- Wider bounds
-----------------------------------------------------------------------------------------

/-- Equal programs under wider bounds. -/
def Pass.widening : Pass where
  relates _ _ := False
  widens := True
  order := none
  kept := []
  refers := False.elim

/-- (config.Within wider) says that two configurations differ only in that the bounds of the second
one are wider.
-/
structure Config.Within (config wider : Config) : Prop where
  space : wider.space = config.space
  optimizes : wider.optimizes = config.optimizes
  expansionLimit : config.expansionLimit ≤ wider.expansionLimit
  callLimit : config.callLimit ≤ wider.callLimit

/-- Every machine is mirrored under wider bounds by itself. -/
theorem Machine.mirrored_widening (level : Nat)
    : (ofLevels level).Mirrored (pure level) .widening := by
  refine mirrored_ofLevels (F := pure) (fun level => (map_pure _ level).symm) ?_ level
  intro _ _ _ _ _ _ _ never _
  exact never.elim

-----------------------------------------------------------------------------------------
-- Texts
-----------------------------------------------------------------------------------------

namespace Machine.Mirrored

open Run

variable {F : Filter Nat} {m : Machine} [m.Steady] (machines : m.Mirrored F .widening)
  {config wider : Config} (within : config.Within wider)
include machines within

omit [m.Steady] in
/-- The expansion of a form within wider bounds mirrors the one within the bounds. -/
theorem expandTop (form : Value) (c : ContextId)
    : Run.Mirrored F .widening (Node.Alike Pass.widening) (m.expandTop config form c)
        fun k => (ofLevels k).expandTop wider form c := by
  have initial : Expander.Alike Pass.widening (.initial config.expansionLimit)
      (.initial wider.expansionLimit) :=
    ⟨_, rfl, .inr ⟨trivial, within.expansionLimit⟩⟩
  have expanded := machines.expand c initial (.refl Pass.widening.exact form) initial
  unfold Machine.expandTop
  rw [within.optimizes]
  refine expanded.bind fun nodes => ?_
  refine (Run.Mirrored.arrangementIf _).bind fun {a a'} same => .pure ?_
  obtain rfl : a' = a := same
  unfold Config.prepared
  rw [within.optimizes]
  split
  · exact nodes.optimized Pass.widening.exact
  · exact nodes

/-- So does a form that is run, whose surroundings have the wider bound on calls. -/
theorem runForm (form : Value) (c : ContextId)
    : Run.Mirrored F .widening (EndsAlike .widening) (m.runForm config form c)
        fun k => (ofLevels k).runForm wider form c := by
  refine .withReader (fun scopes => ?_) ?_
  · exact { scopes with limit := .inr ⟨trivial, within.callLimit⟩ }
  · refine (machines.expandTop within form c).bind fun nodes => ?_
    have evaluated := machines.eval c (.inl nodes) (.refl Pass.widening.exact [])
    exact evaluated.holding (.refl _)

/-- Forms in a row. Witness: induction on the forms; each leaves the same context. -/
theorem runForms (forms : List Value) {last last' : Value} (ends : last.Alike Pass.widening last')
    (c : ContextId)
    : Run.Mirrored F .widening (EndsAlike .widening) (m.runForms config forms last c)
        fun k => (ofLevels k).runForms wider forms last' c := by
  induction forms generalizing last last' c with
  | nil => exact .pure ⟨ends, rfl⟩
  | cons form rest ih =>
      refine ((machines.runForm within form c).holdingOne ends).bind fun {x y} ends => ?_
      obtain ⟨v, d⟩ := x
      obtain ⟨w, d'⟩ := y
      obtain ⟨same, rfl⟩ : v.Alike Pass.widening w ∧ d' = d := ends
      exact ih same d'

/-- A reading that is run within wider bounds mirrors the one within the bounds, form by form. -/
theorem run (reading : Reading) (c : ContextId)
    : Run.Mirrored F .widening (EndsAlike .widening) (m.run config reading c)
        fun k => (ofLevels k).run wider reading c := by
  have forms := machines.runForms within reading.forms (.refl Pass.widening.exact .nil) c
  refine (forms.inContext c).andThen (fun _ => by split <;> infer_instance) fun ends => ?_
  cases reading.error with
  | none => exact .pure ends
  | some e => exact .fail rfl

end Machine.Mirrored

/-- The bounds are only bounds. If a text that is run in a reached store succeeds, and leaves only
contexts whose namespaces are constant, then under wider bounds it succeeds too: its value is the
same up to the numbers of expansions that are left to initial expanders, it equals the same
values, and the context after it defines the same symbols.
-/
theorem Machine.run_within_wider_bounds {host : Host} (blind : host.Blind)
    {arrangements : Nat → Arrangement} {st : Store}
    (reached : (Store.start host arrangements).Leads st) {config wider : Config}
    (within : config.Within wider)
    {level : Nat} {reading : Reading} {c d : ContextId} {scope : Scope} {v : Value} {after : Store}
    (succeeded : ((ofLevels level).run config reading c).outcome scope st = (.ok (v, d), after))
    (constant : after.SpacesConstant)
    : ∃ w after', ((ofLevels level).run wider reading c).outcome scope st = (.ok (w, d), after')
        ∧ v.Alike Pass.widening w ∧ (∀ u : Value, (w == u) = (v == u))
        ∧ ∀ s : Symbol, s ∈ (after'.context d).slots ↔ s ∈ (after.context d).slots := by
  have exact := Pass.widening.exact
  have stores : st.Alike .widening st :=
    .refl st (fun _ never => absurd never List.not_mem_nil) (reached.blind blind) nofun
  have mirrored := (mirrored_widening level).run within reading c
  have counts : Pass.widening.Counts (((ofLevels level).run config reading c).outcome scope st) := by
    rw [succeeded]
    exact ⟨Run.ok_ne_outOfFuel, fun _ => ⟨⟨_, rfl⟩, constant⟩⟩
  obtain ⟨⟨result, after'⟩, ⟨results, later⟩, ran⟩ := mirrored.ends (.refl scope) stores counts
  rw [succeeded] at results later
  dsimp only at results
  cases results with
  | @ok _ y ends =>
      obtain ⟨w, d'⟩ := y
      obtain ⟨same, rfl⟩ : v.Alike Pass.widening w ∧ d' = d := ends
      refine ⟨w, after', eventually_pure.mp ran, same, fun u => ?_, fun s => ?_⟩
      · exact same.equal_eq exact (.refl exact u)
      · have slots := (later.context d').slots s
        rw [Std.ExtTreeMap.mem_iff_isSome_getElem?, Std.ExtTreeMap.mem_iff_isSome_getElem?]
        dsimp only at slots ⊢
        generalize (after.context d').slots[s]? = o, (after'.context d').slots[s]? = o' at slots ⊢
        cases slots <;> rfl

/-- A text that names its namespace, defines an expander and uses it once, under bounds that leave
just room for that, and under wider ones.
-/
theorem Machine.one_expansion_within_wider_bounds
    : let e := Symbol.bare "e"
      let literal := Node.of (.expander (Symbol.bare "ex") [] (.constant (.int 1)))
      let space := Node.of (.define Symbol.currentSpace (.constant (.string "a")))
      let reading :=
        Reading.mk [.node space, .node (.of (.define e literal)), .listOf [.symbol e]] none
      let config := Config.mk coreSpace false 1 0
      let wider := Config.mk coreSpace false 2 1
      let st := Store.start .standard
      (Host.standard.Blind ∧ st.Leads st ∧ config.Within wider)
        ∧ ∃ after, ((ofLevels 8).run config reading Store.first).outcome (.outermost 0) st
              = (.ok (.int 1, 2), after)
            ∧ after.SpacesConstant
            ∧ ∃ after', ((ofLevels 8).run wider reading Store.first).outcome (.outermost 0) st
                = (.ok (.int 1, 2), after') := by
  intro e literal space reading config wider st
  have blind : Host.standard.Blind := Host.blind_standard
  have reached : st.Leads st := .refl
  have within : config.Within wider := ⟨rfl, rfl, by decide, by decide⟩
  let run := ((ofLevels 8).run config reading Store.first).outcome (.outermost 0) st
  have succeeded : run = (.ok (.int 1, 2), run.2) := by
    dsimp only [run, reading, space, literal, e, config, st]
    rfl
  have constant : run.2.SpacesConstant := by
    intro c slot stored
    have size : run.2.contexts.size = 3 := by decide
    have named : ∀ c < 3, ((run.2.context c).slots[Symbol.currentSpace]?).all
        (·.node.isConstant) := by
      decide
    have checked := named c (size ▸ Store.lt_size_of_slot stored)
    rw [stored] at checked
    exact checked
  refine ⟨⟨blind, reached, within⟩, run.2, succeeded, constant, ?_⟩
  obtain ⟨w, after', ran, same, -⟩ :=
    Machine.run_within_wider_bounds blind reached within succeeded constant
  obtain rfl : w = .int 1 := same
  exact ⟨after', ran⟩

end IncrementalLisp
