import IncrementalLisp.Proofs.Simulation.Run

/-! Names in settled contexts. A machine that computes the constants of slots finds the namespace
of a settled context at once, and with it the slot that a symbol means; so what it finds, and what
contexts it makes by definitions and by switches of the namespace, can be read off the store in
which the run ends.
-/

namespace IncrementalLisp

open Store Run

/-- A machine that gives slots with constant nodes their values, in stores that remember values of
a kind.
-/
structure Machine.Records (last : Store) (K : Nat → Slot → Value → Prop) (m : Machine) : Prop where
  forces
    : ∀ {slot : Slot} {v : Value} {c : ContextId} {scope : Scope} {st : Store},
        slot.node.constant? = some v → st.Coherent → st.Finds c slot
        → (m.force slot c).outcome scope st = (.error .outOfFuel, st)
          ∨ (m.force slot c).outcome scope st = (.ok v, st)
          ∨ (m.force slot c).outcome scope st = (.ok v, st.remember slot v)
  constant
    : ∀ {slot : Slot} {v : Value} {c : ContextId} {st : Store},
        slot.node.constant? = some v → Recalls K st → st.Extends last → st.Finds c slot
        → (last.context c).space?.isSome → K st.contexts.size slot v

namespace Machine.Records

variable {last : Store} {K : Nat → Slot → Value → Prop} {m : Machine} {c p : ContextId}
  {space : String} {s : Symbol} {scope : Scope} {st after : Store}

/-- The search for the namespace of a settled context finds it and remembers a constant at most. -/
theorem currentSpace (records : m.Records last K) (recalls : Recalls K st) (leads : st.Extends last)
    (old : c < st.contexts.size) (settled : (last.context c).space? = some space) {found : String}
    (ran : (m.currentSpace c).outcome scope st = (.ok found, after))
    : found = space ∧ Recalls K after ∧ after.contexts = st.contexts := by
  have here : (st.context c).space? = some space := by
    rw [← leads.same c old]
    exact settled
  unfold Machine.currentSpace at ran
  rw [outcome_bind_eq_ok] at ran
  obtain ⟨context, middle, read, ran⟩ := ran
  obtain ⟨rfl, rfl⟩ : st.context c = context ∧ st = middle := by simpa using read
  unfold Context.space? at here
  split at ran
  · rename_i absent
    rw [absent] at here
    obtain ⟨rfl, rfl⟩ : coreSpace = found ∧ st = after := by simpa using ran
    exact ⟨Option.some.inj here, recalls, rfl⟩
  · rename_i slot stored
    rw [stored] at here
    obtain ⟨v, constant, rfl⟩ := Option.map_eq_some_iff.mp here
    have finds : st.Finds c slot := ⟨_, stored⟩
    have holds := records.constant constant recalls leads finds (by rw [settled]; rfl)
    rw [outcome_bind_eq_ok] at ran
    obtain ⟨result, middle, attempted, ran⟩ := ran
    rw [outcome_attempt] at attempted
    have fixed : ∀ w, slot.node.constant? = some w → v = w := by
      intro w also
      exact Option.some.inj (constant.symm.trans also)
    have named : found = v.asSpace ∧ after = middle := by
      rcases records.forces constant recalls.coherent finds with ends | ends | ends
        <;> rw [ends] at attempted
      · cases attempted
      all_goals
        obtain ⟨rfl, rfl⟩ := attempted
        cases v <;> cases ran <;> exact ⟨rfl, rfl⟩
    obtain ⟨rfl, rfl⟩ := named
    refine ⟨rfl, ?_⟩
    rcases records.forces constant recalls.coherent finds with ends | ends | ends
      <;> rw [ends] at attempted
    · cases attempted
    · obtain ⟨rfl, rfl⟩ := attempted
      exact ⟨recalls, rfl⟩
    · obtain ⟨rfl, rfl⟩ := attempted
      exact ⟨recalls.remember finds fixed holds, rfl⟩

section Follows

variable [m.Follows Leads]

/-- The slot that a symbol means in a settled context is that of the namespace or of the core. -/
theorem slot? (records : m.Records last K) (recalls : Recalls K st) (leads : after.Extends last)
    (old : c < st.contexts.size) (settled : (last.context c).space? = some space)
    {found : Option Slot} (ran : (m.slot? c s).outcome scope st = (.ok found, after))
    : found = (last.context c).slotIn? space s ∧ Recalls K after := by
  have onward : st.Leads ((m.slot? c s).outcome scope st).2 := Run.Follows.follows scope st
  rw [ran] at onward
  have before : st.Extends last := Leads.onward onward leads
  have same (at' : Store) (contexts : at'.contexts = st.contexts)
      : at'.context c = last.context c := by
    rw [before.same c old]
    unfold Store.context
    rw [contexts]
  unfold Machine.slot? at ran
  split at ran
  · rename_i qualified
    rw [outcome_bind_eq_ok] at ran
    obtain ⟨context, middle, read, ran⟩ := ran
    obtain ⟨rfl, rfl⟩ : st.context c = context ∧ st = middle := by simpa using read
    obtain ⟨rfl, rfl⟩ : (st.context c).slots[s]? = found ∧ st = after := by simpa using ran
    refine ⟨?_, recalls⟩
    rw [same st rfl]
    unfold Context.slotIn?
    rw [Symbol.qualify_of_isQualified _ qualified, Symbol.qualify_of_isQualified _ qualified,
      Option.or_self]
  · simp only [outcome_bind_eq_ok] at ran
    obtain ⟨spelled, middle, known, context, later, read, ran⟩ := ran
    obtain ⟨rfl, rfl⟩ : middle.context c = context ∧ middle = later := by simpa using read
    obtain ⟨rfl, rfl⟩ : (middle.context c).slotIn? spelled s = found ∧ middle = after := by
      simpa only [outcome_pure, Prod.mk.injEq, Except.ok.injEq] using ran
    obtain ⟨rfl, kept, contexts⟩ := records.currentSpace recalls before old settled known
    exact ⟨by rw [same middle contexts], kept⟩

/-- A definition in a settled context adds the context that the definition makes of it. -/
theorem define [Lasting K] (records : m.Records last K) (recalls : Recalls K st)
    (leads : after.Extends last) (old : c < st.contexts.size)
    (settled : (last.context c).space? = some space) {node : Node} {b : Bindings}
    (ran : (m.define c s node b).outcome scope st = (.ok p, after))
    : st.contexts.size ≤ p ∧ p < after.contexts.size ∧ Recalls K after
      ∧ last.context p = (last.context c).define p space s node b := by
  have onward : st.Leads ((m.define c s node b).outcome scope st).2 := Run.Follows.follows scope st
  rw [ran] at onward
  have before : st.Extends last := Leads.onward onward leads
  unfold Machine.define at ran
  rw [outcome_bind_eq_ok] at ran
  obtain ⟨found, middle, known, ran⟩ := ran
  obtain ⟨rfl, kept, contexts⟩ := records.currentSpace recalls before old settled known
  have same : middle.context c = last.context c := by
    rw [before.same c old]
    unfold Store.context
    rw [contexts]
  obtain ⟨rfl, rfl⟩ : middle.contexts.size = p ∧ (middle.define c found s node b).2 = after := by
    simpa [Store.define, Store.add] using ran
  have new : middle.contexts.size < (middle.define c found s node b).2.contexts.size := by
    rw [size_define]
    exact Nat.lt_succ_self _
  refine ⟨Nat.le_of_eq (by rw [contexts]), new, kept.define, ?_⟩
  rw [leads.same _ new, context_define, if_pos rfl, same]

end Follows

end Machine.Records

-----------------------------------------------------------------------------------------
-- Contexts made by definitions
-----------------------------------------------------------------------------------------

namespace Store

variable {st : Store} {c o p : ContextId} {space : String} {s : Symbol} {node : Node} {b : Bindings}

/-- The context that a definition makes derives from the one before. -/
theorem Derives.of_define (younger : c ≤ p)
    (made : st.context p = (st.context c).define p space s node b)
    : st.Derives c p (s.qualify space) := by
  refine ⟨younger, ?_⟩
  intro e differs
  rw [made, Context.getElem?_define, if_neg differs]
  split
  · exact Or.inr rfl
  · exact Or.inl rfl

/-- A definition of a symbol that does not stand for the namespace keeps the namespace. -/
theorem space?_of_derives {q : Symbol} (derives : st.Derives c p q) (other : q ≠ .currentSpace)
    : (st.context p).space? = (st.context c).space? := by
  unfold Context.space?
  rcases derives.2 .currentSpace other.symm with same | renewed
  · rw [same]
  · rw [renewed]
    cases (st.context c).slots[Symbol.currentSpace]? <;> rfl

/-- (st.Switches o p space) says that a context is in the namespace, or that one derives from it
which is.
-/
def Switches (st : Store) (o p : ContextId) (space : String)
    : Prop :=
  (p = o ∧ (st.context o).space? = some space)
    ∨ ∃ before, (st.context o).space? = some before ∧ before ≠ space
        ∧ o ≤ p ∧ st.context p
          = (st.context o).define p before .currentSpace (.constant (.string space)) []

/-- A context that switches the namespace derives from the other one but for the namespace's symbol.
-/
theorem Switches.derives (switches : st.Switches o p space)
    : st.Derives o p .currentSpace := by
  rcases switches with ⟨rfl, _⟩ | ⟨before, _, _, younger, made⟩
  · exact .refl ..
  · exact .of_define younger made

/-- It has the namespace that it switches to, by its slot. -/
theorem Switches.space? (switches : st.Switches o p space)
    : (st.context p).space? = some space := by
  rcases switches with ⟨rfl, here⟩ | ⟨before, _, _, younger, made⟩
  · exact here
  · have stored
        : ((st.context o).define p before .currentSpace (.constant (.string space)) []).slots[
            Symbol.currentSpace]? = _ :=
      Context.getElem?_define_self
    unfold Context.space?
    rw [made]
    rw [stored]
    rfl

end Store

namespace Machine.Records

variable {last : Store} {K : Nat → Slot → Value → Prop} [Lasting K] {m : Machine}
  [m.Follows Leads] {slot : Slot} {finder p : ContextId} {scope : Scope} {st after : Store}

/-- A slot is computed in its own namespace, in a context that has the slot or derives from one
which has it.
-/
theorem contextOf (records : m.Records last K) (recalls : Recalls K st) (leads : after.Extends last)
    (found : st.Finds finder slot) (settled : (last.context slot.owner).space?.isSome)
    (known : (last.context finder).space?.isSome)
    (ran : (m.contextOf slot finder).outcome scope st = (.ok p, after))
    : ∃ o, last.Finds o slot ∧ last.Switches o p slot.space ∧ (p = o ∨ st.contexts.size ≤ p)
        ∧ p < after.contexts.size ∧ Recalls K after := by
  unfold Machine.contextOf at ran
  rw [outcome_bind_eq_ok] at ran
  obtain ⟨living, middle, asked, ran⟩ := ran
  have quiet : st.Quiet ((Run.isLiving slot.owner).outcome scope st).2 :=
    Run.Follows.follows scope st
  rw [asked] at quiet
  dsimp only at ran
  have chosen : st.Finds (if living then slot.owner else finder) slot
      ∧ (last.context (if living then slot.owner else finder)).space?.isSome := by
    obtain ⟨k, stored⟩ := found
    split
    · exact ⟨⟨k, recalls.coherent.stored stored⟩, settled⟩
    · exact ⟨⟨k, stored⟩, known⟩
  generalize (if living then slot.owner else finder) = o at ran chosen
  obtain ⟨held, somewhere⟩ := chosen
  obtain ⟨before, here⟩ := Option.isSome_iff_exists.mp somewhere
  rw [outcome_bind_eq_ok] at ran
  obtain ⟨space, between, named, ran⟩ := ran
  have onward : middle.Leads ((m.currentSpace o).outcome scope middle).2 :=
    Run.Follows.follows scope middle
  rw [named] at onward
  have later : between.Extends last := by
    split at ran
    · obtain ⟨_, rfl⟩ : o = p ∧ between = after := by simpa using ran
      exact leads
    · have made : between.Leads (Run.outcome (m.define o .currentSpace
          (.constant (.string slot.space)) []) scope between).2 := Run.Follows.follows scope between
      rw [ran] at made
      exact Leads.onward made leads
  have middles : middle.Extends last := Leads.onward onward later
  have there : middle.Finds o slot := quiet.1.finds held
  have old : o < middle.contexts.size := by
    obtain ⟨k, stored⟩ := there
    exact lt_size_of_slot stored
  obtain ⟨rfl, kept, contexts⟩ := records.currentSpace (quiet.2 K recalls) middles old here named
  rw [← contexts] at old
  refine ⟨o, middles.finds there, ?_⟩
  split at ran
  · rename_i same
    obtain ⟨rfl, rfl⟩ : o = p ∧ between = after := by simpa using ran
    rw [beq_iff_eq] at same
    exact ⟨Or.inl ⟨rfl, by rw [here, same]⟩, Or.inl rfl, old, kept⟩
  · rename_i differs
    rw [beq_iff_eq] at differs
    obtain ⟨younger, new, kept, made⟩ := records.define kept leads old here ran
    have below : o ≤ p := Nat.le_trans (Nat.le_of_lt old) younger
    have fresh : st.contexts.size ≤ p := by
      rw [contexts] at younger
      exact Nat.le_trans quiet.1.grows.1 younger
    exact ⟨Or.inr ⟨_, here, differs, below, made⟩, Or.inr fresh, new, kept⟩

end Machine.Records

end IncrementalLisp
