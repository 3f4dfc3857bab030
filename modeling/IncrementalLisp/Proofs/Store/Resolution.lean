import IncrementalLisp.Proofs.Store.Independence

/-! The dependents of a symbol against its meaning. The search for dependents starts from the symbol
in the current namespace, whereas the search for a slot falls back to the core. So the dependents
are those of the slot that the symbol means, unless it means one of the core from outside.
-/

namespace IncrementalLisp

open Run Machine

namespace Context

variable {c : Context} {space : String} {s : Symbol} {slot : Slot}

/-- The slot that a symbol means in a namespace is the one of its qualified form there, or else of
its qualified form in the core.
-/
theorem Indexed.symbol_of_slotIn? (indexed : c.Indexed) (meant : c.slotIn? space s = some slot)
    : slot.symbol = s.qualify space
      ∨ slot.symbol = s.qualify coreSpace ∧ s.qualify space ∉ c.slots := by
  rcases Option.or_eq_some_iff.mp meant with near | ⟨absent, core⟩
  · exact .inl (indexed.ownSymbol near)
  · exact .inr ⟨indexed.ownSymbol core, by simpa using absent⟩

end Context

namespace Store

variable {st after : Store} {c : ContextId} {scope : Scope} {level : Nat} {s : Symbol}

/-- The dependents of a symbol are found once it is qualified: the symbols whose slots reach its
qualified form.
-/
theorem dependents_of_qualify (reached : st.Reached) (there : c < st.contexts.size) {q : Symbol}
    (qualified : ((ofLevels level).qualify c s).outcome scope st = (.ok q, after))
    : ∃ found, ((ofLevels level).dependents c s).outcome scope st = (.ok found, after)
        ∧ ∀ k, k ∈ found ↔ (st.context c).Reaches k q := by
  have leads : st.Leads after := Run.Follows.of_eq qualified
  refine ⟨(after.context c).transitiveDependents q, ?_, fun k => ?_⟩
  · unfold dependents
    rw [outcome_bind_of_eq_ok qualified]
    rfl
  · rw [leads.grows.2 c there]
    exact (reached.coherent.indexed c).mem_transitiveDependents

/-- Whenever the search for the slot of a symbol finds one, the dependents of the symbol are found
too. They are the symbols whose slots reach the symbol of that slot, unless the symbol is bare and
the slot was found in the core for want of one in the current namespace; then they are those that
reach the name which the current namespace does not define.
-/
theorem dependents_of_meant (reached : st.Reached) (there : c < st.contexts.size) {slot : Slot}
    (meant : ((ofLevels level).slot? c s).outcome scope st = (.ok (some slot), after))
    : ∃ found, ((ofLevels level).dependents c s).outcome scope st = (.ok found, after)
        ∧ ((∀ k, k ∈ found ↔ (st.context c).Reaches k slot.symbol)
          ∨ s.isQualified = false ∧ slot.symbol = s.qualify coreSpace
            ∧ ∃ space, s.qualify space ∉ (st.context c).slots
                ∧ ∀ k, k ∈ found ↔ (st.context c).Reaches k (s.qualify space)) := by
  have indexed := reached.coherent.indexed c
  have leads : st.Leads after := Run.Follows.of_eq meant
  unfold slot? at meant
  cases qualified : s.isQualified with
  | true =>
      rw [if_pos qualified, outcome_bind_of_eq_ok (outcome_context ..)] at meant
      obtain ⟨stored, rfl⟩ : (st.context c).slots[s]? = some slot ∧ st = after := by
        simpa using meant
      obtain rfl : slot.symbol = s := indexed.ownSymbol stored
      have itself : ((ofLevels level).qualify c slot.symbol).outcome scope st
          = (.ok slot.symbol, st) := by
        unfold qualify
        rw [if_pos qualified]
        rfl
      obtain ⟨found, asked, reach⟩ := dependents_of_qualify reached there itself
      exact ⟨found, asked, .inl reach⟩
  | false =>
      rw [if_neg (by simp [qualified]), outcome_bind_eq_ok] at meant
      obtain ⟨space, middle, named, result⟩ := meant
      obtain ⟨stored, rfl⟩ : (middle.context c).slotIn? space s = some slot ∧ middle = after := by
        simpa only [outcome_bind_of_eq_ok (outcome_context ..), outcome_pure, Prod.mk.injEq,
          Except.ok.injEq] using result
      rw [leads.grows.2 c there] at stored
      have inSpace : ((ofLevels level).qualify c s).outcome scope st
          = (.ok (s.qualify space), middle) := by
        unfold qualify
        rw [if_neg (by simp [qualified]), outcome_bind_of_eq_ok named]
        rfl
      obtain ⟨found, asked, reach⟩ := dependents_of_qualify reached there inSpace
      refine ⟨found, asked, ?_⟩
      rcases indexed.symbol_of_slotIn? stored with near | ⟨core, absent⟩
      · exact .inl (near ▸ reach)
      · exact .inr ⟨rfl, core, space, absent, reach⟩

/-- In another namespace than the core a bare symbol means a slot of the core, on which another one
depends; but this one is not among its dependents, which are those of a name that nothing defines.
-/
theorem core_dependent_missed
    : let a := Symbol.inSpace coreSpace "a"
      let b := Symbol.inSpace coreSpace "b"
      let one := (Store.start .standard).define 0 coreSpace a (.constant (.int 1)) []
      let two := one.2.define 1 coreSpace b (.lookup (.bare "a")) []
      let st := (two.2.define 2 coreSpace .currentSpace (.constant (.string "user")) []).2
      st.Reached ∧ (st.context 3).space? = some "user"
        ∧ ((st.context 3).slotIn? "user" (.bare "a")).map (·.symbol) = some a
        ∧ (st.context 3).Reaches b a
        ∧ ∃ found after,
            ((ofLevels 1).dependents 3 (.bare "a")).outcome (.outermost 1) st = (.ok found, after)
              ∧ b ∉ found := by
  intro a b one two st
  have reached : st.Reached :=
    Reached.leads (.start _) (((Relation.ReflTransGen.single (.define ..)).tail (.define ..)).tail
      (.define ..))
  have settled : (st.context 3).space? = some "user" := by decide +kernel
  have indexed := reached.coherent.indexed 3
  have reaches : (st.context 3).Reaches b a :=
    indexed.mem_transitiveDependents.mp (by decide +kernel)
  have missed : ¬(st.context 3).Reaches b (.inSpace "user" "a") := by
    rw [← indexed.mem_transitiveDependents]
    decide +kernel
  obtain ⟨after, named, -⟩ :=
    currentSpace_of_space? 0 (.outermost 1) reached.coherent settled
  have qualified : ((ofLevels 1).qualify 3 (.bare "a")).outcome (.outermost 1) st
      = (.ok (.inSpace "user" "a"), after) := by
    unfold qualify
    rw [if_neg (by decide), outcome_bind_of_eq_ok named]
    rfl
  obtain ⟨found, asked, reach⟩ := dependents_of_qualify reached (by decide +kernel) qualified
  have unfound : b ∉ found := (reach b).not.mpr missed
  exact ⟨reached, settled, by decide +kernel, reaches, found, after, asked, unfound⟩

end Store

end IncrementalLisp
