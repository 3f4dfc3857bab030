import IncrementalLisp.Proofs.Simulation.Names

/-! Look-ups and definitions in contexts that match. Two machines find similar slots there under
the same symbols; alike definitions make matching contexts of them; and similar slots are computed
in contexts that match on what the slots read.
-/

namespace IncrementalLisp

open Store Run

/-- Two stores of which the second is for evaluation from scratch, with the same types and one order
of all tables.
-/
structure Store.Comparable (left right : Store) : Prop where
  coherent : left.Coherent
  coherent' : right.Coherent
  hosts : right.host.types = left.host.types
  order : ∀ k k', right.arrangements k' = left.arrangements k

/-- Machines of which the second simulates the first. -/
structure Machine.Simulates (left right : Store) (m m' : Machine) : Prop where
  records : m.Records left (Computes left)
  records' : m'.Records right (Repeats left right)
  eval
    : ∀ {N N' : Nat} {node node' : Node} {c d : ContextId} {b b' : Bindings},
        node.Alike (left.Matches right N N') node' → BindingsAlike (left.Matches right N N') b b'
        → left.Matches right N N' (node.Free b) c d
        → Run.Simulates left right N N'
            (fun n n' x y => x.1.Alike (left.Matches right n n') y.1
              ∧ ∀ names, left.Matches right N N' names c d → left.Matches right n n' names x.2 y.2)
            (m.eval node c b) (m'.eval node' d b')
  call
    : ∀ {N N' : Nat} {callee callee' : Value} {args args' : List Value} {c d : ContextId},
        callee.Alike (left.Matches right N N') callee'
        → ValuesAlike (left.Matches right N N') args args'
        → Run.Simulates left right N N' (fun n n' v w => v.Alike (left.Matches right n n') w)
            (m.call callee args c) (m'.call callee' args' d)
  force
    : ∀ {N N' : Nat} {slot other : Slot} {c d : ContextId},
        left.Similar right slot other → left.Matches right N N' (fun _ => False) c d
        → left.Finds c slot → right.Finds d other
        → Run.Simulates left right N N' (fun n n' v w => v.Alike (left.Matches right n n') w)
            (m.force slot c) (m'.force other d)

namespace Store

variable {left right : Store} {N N' n n' : Nat} {c d o o' p p' : ContextId}

-----------------------------------------------------------------------------------------
-- Slots of matching contexts
-----------------------------------------------------------------------------------------

/-- Matching contexts have similar slots under every name that they match on, or none. -/
theorem Matched.slotIn? {names : Symbol → Prop} (matched : left.Matches right N N' names c d)
    {s : Symbol} (known : names s)
    : ∃ space, (left.context c).space? = some space ∧ (right.context d).space? = some space
        ∧ Option.Rel (fun slot other => left.Similar right slot other ∧ left.Finds c slot
            ∧ right.Finds d other)
          ((left.context c).slotIn? space s) ((right.context d).slotIn? space s) := by
  obtain ⟨_, _, space, here, there, agree⟩ := matched
  refine ⟨space, here, there, ?_⟩
  have near := agree s known _ (.inr (.inl rfl))
  have core := agree s known _ (.inr (.inr rfl))
  have step {e : Symbol} (agree : left.Agree right (left.Similar right) e c d)
      : Option.Rel (fun slot other => left.Similar right slot other ∧ left.Finds c slot
          ∧ right.Finds d other)
        (left.context c).slots[e]? (right.context d).slots[e]? := by
    unfold Agree at agree
    cases stored : (left.context c).slots[e]? with
    | none =>
        rw [stored] at agree
        cases stored' : (right.context d).slots[e]? with
        | none => exact .none
        | some other =>
            rw [stored'] at agree
            cases agree
    | some slot =>
        rw [stored] at agree
        cases stored' : (right.context d).slots[e]? with
        | none =>
            rw [stored'] at agree
            cases agree
        | some other =>
            rw [stored'] at agree
            cases agree with
            | some similar => exact .some ⟨similar, ⟨e, stored⟩, ⟨e, stored'⟩⟩
  have first := step near
  have second := step core
  unfold Context.slotIn?
  generalize (left.context c).slots[s.qualify space]? = x,
    (right.context d).slots[s.qualify space]? = x' at first ⊢
  cases first with
  | none => exact second
  | some related => exact .some related

-----------------------------------------------------------------------------------------
-- Contexts made by alike definitions
-----------------------------------------------------------------------------------------

/-- Alike definitions in matching contexts make contexts that match wherever those did, unless the
namespace is what is defined. Witness: whatever the new slots read, the contexts before matched on.
-/
theorem Comparable.defined (stores : left.Comparable right) {s : Symbol} {node node' : Node}
    {b b' : Bindings} (alike : node.Alike (left.Matches right N N') node')
    (bindings : BindingsAlike (left.Matches right N N') b b')
    (matched : left.Matches right N N' (node.Free b) c d)
    (other : s.name ≠ Symbol.currentSpace.name)
    {space : String} (here : (left.context c).space? = some space)
    (there : (right.context d).space? = some space)
    (made : left.context p = (left.context c).define p space s node b)
    (made' : right.context p' = (right.context d).define p' space s node' b')
    (old : N ≤ p) (old' : N' ≤ p') (new : p < n) (new' : p' < n') {names : Symbol → Prop}
    (known : left.Matches right N N' names c d)
    : left.Matches right n n' names p p' := by
  have below : c ≤ p := Nat.le_trans (Nat.le_of_lt matched.1) old
  have below' : d ≤ p' := Nat.le_trans (Nat.le_of_lt matched.2.1) old'
  have derives := Derives.of_define below made
  have derives' := Derives.of_define below' made'
  have differs : s.qualify space ≠ .currentSpace := by
    intro same
    apply other
    rw [← same]
    unfold Symbol.qualify
    split <;> rfl
  have space? : (left.context p).space? = some space := by
    rw [space?_of_derives derives differs, here]
  have space?' : (right.context p').space? = some space := by
    rw [space?_of_derives derives' differs, there]
  have stored : (left.context p).slots[s.qualify space]?
      = some (Context.newSlot p space s node b) := by
    rw [made]
    exact Context.getElem?_define_self
  have stored' : (right.context p').slots[s.qualify space]?
      = some (Context.newSlot p' space s node' b') := by
    rw [made']
    exact Context.getElem?_define_self
  obtain ⟨kept, renewed⟩ := Derives.similar stores.coherent stores.coherent' derives derives'
    (by rw [space?, space?']; exact ⟨rfl, rfl⟩) (fun _ => trivial) (by
      intro _
      unfold Agree
      rw [stored, stored']
      refine .some ⟨?_, ?_, fun _ => rfl, ?_, ?_⟩
      · exact alike.mono (Matched.within Or.inr old old')
      · exact bindings.mono (Matched.within Or.inr old old')
      · intro _
        change (left.context p).space?.isSome ∧ (right.context p').space?.isSome
        rw [space?, space?']
        exact ⟨rfl, rfl⟩
      · intro _ t free e spelled
        change left.Agree right _ e p p'
        by_cases same : e = s.qualify space
        · subst same
          unfold Agree
          rw [stored, stored']
          exact .some (Or.inl (.new trivial stored stored'))
        · obtain ⟨_, _, _, also, _, agree⟩ := matched
          obtain rfl := Option.some.inj (here.symm.trans also)
          exact (Onward.agree derives derives' same (agree t free e spelled)).mono Or.inl)
  obtain ⟨_, _, _, also, _, agree⟩ := known
  obtain rfl := Option.some.inj (here.symm.trans also)
  refine ⟨new, new', space, space?, space?', ?_⟩
  intro t named e spelled
  by_cases same : e = s.qualify space
  · subst same
    exact renewed trivial
  · exact kept e same (agree t named e spelled)

-----------------------------------------------------------------------------------------
-- Contexts in which similar slots are computed
-----------------------------------------------------------------------------------------

/-- Contexts that agree on the symbol of namespaces have the same namespace. -/
theorem space?_eq_of_agree (agree : left.Agree right (left.Similar right) .currentSpace o o')
    {space space' : String} (here : (left.context o).space? = some space)
    (there : (right.context o').space? = some space')
    : space' = space := by
  unfold Context.space? at here there
  unfold Agree at agree
  generalize (left.context o).slots[Symbol.currentSpace]? = x,
    (right.context o').slots[Symbol.currentSpace]? = x' at agree here there
  cases agree with
  | none => exact Option.some.inj (there.symm.trans here)
  | some similar =>
      rename_i slot other
      obtain ⟨v, constant, rfl⟩ := Option.map_eq_some_iff.mp here
      obtain ⟨w, constant', rfl⟩ := Option.map_eq_some_iff.mp there
      have alike := similar.fit.node.constant?
      rw [constant, constant'] at alike
      cases alike with
      | some same =>
          cases v with
          | list | vector | map | set | function | expander | node =>
              obtain ⟨_, rfl, _⟩ := same
              rfl
          | _ =>
              obtain rfl := same
              rfl

/-- Contexts in the namespace of two similar slots, each of them one that has its slot or derives
from it, match on what the slots read. Witness: where the slots read the symbol of namespaces, both
contexts have switched or neither has; where they do not, a switch changes nothing that they read.
-/
theorem Comparable.switched (stores : left.Comparable right) {slot other : Slot}
    (similar : left.Similar right slot other) (varies : slot.node.constant? = none)
    (found : left.Finds o slot) (found' : right.Finds o' other)
    (switches : left.Switches o p slot.space) (switches' : right.Switches o' p' other.space)
    (new : p < n) (new' : p' < n')
    : left.Matches right n n' (slot.node.Free slot.bindings) p p' := by
  obtain ⟨k, stored⟩ := found
  obtain ⟨k', stored'⟩ := found'
  have fit := similar.fit
  rw [fit.space varies] at switches'
  have space? := switches.space?
  have space?' := switches'.space?
  obtain ⟨kept, renewed⟩ := Derives.similar stores.coherent stores.coherent' switches.derives
    switches'.derives
    (by rw [space?, space?']; exact ⟨rfl, rfl⟩) id (by
      intro agree
      rcases switches with ⟨rfl, here⟩ | ⟨before, here, moved, younger, made⟩
        <;> rcases switches' with ⟨rfl, there⟩ | ⟨before', there, moved', younger', made'⟩
      · exact agree.mono fun similar => similar.fit.mono Or.inr
      · exact absurd (space?_eq_of_agree agree here there) moved'
      · exact absurd (space?_eq_of_agree agree here there).symm moved
      · have named
            : ((left.context o).define p before .currentSpace
                (.constant (.string slot.space)) []).slots[Symbol.currentSpace.qualify before]?
                  = _ :=
          Context.getElem?_define_self
        have named'
            : ((right.context o').define p' before' .currentSpace
                (.constant (.string slot.space)) []).slots[Symbol.currentSpace.qualify before']?
                  = _ :=
          Context.getElem?_define_self
        rw [← made] at named
        rw [← made'] at named'
        change (left.context p).slots[Symbol.currentSpace]? = _ at named
        change (right.context p').slots[Symbol.currentSpace]? = _ at named'
        unfold Agree
        rw [named, named']
        exact .some ⟨Node.Alike.self (by rintro _ ⟨⟩), rfl, nofun, nofun, nofun⟩)
  refine ⟨new, new', slot.space, space?, space?', ?_⟩
  intro s free e spelled
  have agree := fit.reads_at stores.coherent stores.coherent' varies stored stored' free spelled
  by_cases same : e = .currentSpace
  · subst same
    exact renewed agree
  · exact kept e same agree

end Store

namespace Machine.Simulates

variable {left right : Store} {m m' : Machine} [m.Follows Leads] [m'.Follows Leads] {N N' : Nat}
  {c d : ContextId} {s : Symbol} {names : Symbol → Prop}

/-- What follows the search for a slot leads on. -/
theorem leads_of_slot? {scope : Scope} {st middle : Store} {found : Option Slot}
    (ran : (m.slot? c s).outcome scope st = (.ok found, middle))
    : middle.Leads (Run.outcome (match found with
        | some slot => m.force slot c
        | none => do Run.fail (.unresolvedSymbol (← m.qualify c s))) scope middle).2 := by
  cases found with
  | none => exact Run.Follows.follows scope middle
  | some slot => exact Machine.Follows.force (finds_of_slot? ran)

/-- Matching contexts give alike values to the names that they match on. -/
theorem valueOf (machines : m.Simulates left right m')
    (matched : left.Matches right N N' names c d) (known : names s)
    : Run.Simulates left right N N' (fun n n' v w => v.Alike (left.Matches right n n') w)
        (m.valueOf c s) (m'.valueOf d s) := by
  have found : Run.Simulates left right N N'
      (fun _ _ => Option.Rel fun slot other => left.Similar right slot other ∧ left.Finds c slot
        ∧ right.Finds d other) (m.slot? c s) (m'.slot? d s) := by
    constructor
    intro scope scope' st st' after after' a b bound bound' recalls recalls' ran ran' leads leads'
    obtain ⟨space, here, there, related⟩ := matched.slotIn? known
    obtain ⟨rfl, kept⟩ := machines.records.slot? recalls leads (Nat.lt_of_lt_of_le matched.1 bound)
      here ran
    obtain ⟨rfl, kept'⟩ := machines.records'.slot? recalls' leads'
      (Nat.lt_of_lt_of_le matched.2.1 bound') there ran'
    exact ⟨kept, kept', related⟩
  refine found.bind_of leads_of_slot? leads_of_slot? fun bound bound' related => ?_
  cases related with
  | none => exact .of_left (bind_ne_ok fun _ => fail_ne_ok _)
  | some inner =>
      obtain ⟨similar, finds, finds'⟩ := inner
      have here : left.Matches right _ _ (fun _ => False) c d :=
        (matched.mono id bound bound').fewer fun _ none => none.elim
      exact machines.force similar here finds finds'

/-- Alike definitions in matching contexts leave matching contexts. -/
theorem define (machines : m.Simulates left right m') (stores : left.Comparable right)
    {node node' : Node} {b b' : Bindings} (alike : node.Alike (left.Matches right N N') node')
    (bindings : BindingsAlike (left.Matches right N N') b b')
    (matched : left.Matches right N N' (node.Free b) c d)
    (other : s.name ≠ Symbol.currentSpace.name)
    : Run.Simulates left right N N'
        (fun n n' p p' => ∀ names, left.Matches right N N' names c d
          → left.Matches right n n' names p p')
        (m.define c s node b) (m'.define d s node' b') := by
  constructor
  intro scope scope' st st' after after' p p' bound bound' recalls recalls' ran ran' leads leads'
  obtain ⟨space, here, there, _⟩ := matched.2.2
  obtain ⟨young, new, kept, made⟩ :=
    machines.records.define recalls leads (Nat.lt_of_lt_of_le matched.1 bound) here ran
  obtain ⟨young', new', kept', made'⟩ :=
    machines.records'.define recalls' leads' (Nat.lt_of_lt_of_le matched.2.1 bound') there ran'
  exact ⟨kept, kept', fun names => stores.defined alike bindings matched other here there made made'
    (Nat.le_trans bound young) (Nat.le_trans bound' young') new new'⟩

/-- Similar slots are computed in contexts that match on what they read. -/
theorem contextOf (machines : m.Simulates left right m') (stores : left.Comparable right)
    {slot other : Slot} {finder finder' : ContextId} (similar : left.Similar right slot other)
    (varies : slot.node.constant? = none) (found : left.Finds finder slot)
    (found' : right.Finds finder' other) (known : (left.context finder).space?.isSome)
    (known' : (right.context finder').space?.isSome) (old : finder < N) (old' : finder' < N')
    : Run.Simulates left right N N'
        (fun n n' p p' => left.Matches right n n' (slot.node.Free slot.bindings) p p')
        (m.contextOf slot finder) (m'.contextOf other finder') := by
  constructor
  intro scope scope' st st' after after' p p' bound bound' recalls recalls' ran ran' leads leads'
  have settled := similar.fit.settled varies
  have onward : st.Leads ((m.contextOf slot finder).outcome scope st).2 :=
    Run.Follows.follows scope st
  have onward' : st'.Leads ((m'.contextOf other finder').outcome scope' st').2 :=
    Run.Follows.follows scope' st'
  rw [ran] at onward
  rw [ran'] at onward'
  obtain ⟨o, finds, switches, -, new, kept⟩ := machines.records.contextOf recalls leads
    ((Leads.onward onward leads).finds_before (Nat.lt_of_lt_of_le old bound) found) settled.1 known ran
  obtain ⟨o', finds', switches', -, new', kept'⟩ := machines.records'.contextOf recalls' leads'
    ((Leads.onward onward' leads').finds_before (Nat.lt_of_lt_of_le old' bound') found') settled.2 known'
    ran'
  exact ⟨kept, kept', stores.switched similar varies finds finds' switches switches' new new'⟩

end Machine.Simulates

end IncrementalLisp
