import IncrementalLisp.Proofs.Host.Standard
import IncrementalLisp.Proofs.Prelude.Standing

/-! Stores stocked with definitions: a library one of whose contexts has all of them. A definition
of a new symbol, if it is a constant or a function literal and refers to what is defined, is added
to the stock.
-/

namespace IncrementalLisp

/-- A context after a definition has what it had before, and the defined symbol. -/
theorem Context.isSome_define {c : Context} {owner : ContextId} {space : String} {s t : Symbol}
    {node : Node} {b : Bindings}
    : ((c.define owner space s node b).slots[t]?).isSome
      ↔ t = s.qualify space ∨ (c.slots[t]?).isSome := by
  rw [getElem?_define]
  by_cases same : t = s.qualify space
  · simp [same]
  · by_cases renewed : t ∈ c.transitiveDependents (s.qualify space) <;> simp [same, renewed]

/-- A slot after a definition is that of the definition, or has the node of an older one. -/
theorem Context.slot_define {c : Context} {owner : ContextId} {space : String} {s t : Symbol}
    {node : Node} {b : Bindings} {slot : Slot}
    (stored : (c.define owner space s node b).slots[t]? = some slot)
    : (t = s.qualify space ∧ slot.node = node ∧ slot.bindings = b ∧ slot.space = space)
      ∨ ∃ old, c.slots[t]? = some old
          ∧ slot.node = old.node ∧ slot.bindings = old.bindings ∧ slot.space = old.space := by
  rw [getElem?_define] at stored
  split at stored
  · rename_i same
    obtain rfl := Option.some.inj stored
    exact Or.inl ⟨same, rfl, rfl, rfl⟩
  · split at stored
    · obtain ⟨old, held, rfl⟩ := Option.map_eq_some_iff.mp stored
      exact Or.inr ⟨old, held, rfl, rfl, rfl⟩
    · exact Or.inr ⟨slot, stored, rfl, rfl, rfl⟩

namespace Store

/-- (st.Stocked defs c) says that a store is a library, and that a context has all its definitions.
-/
structure Stocked (st : Store) (defs : List (Symbol × Node)) (c : ContextId) : Prop where
  library : st.Library defs
  recalls : Recalls st.Means st
  there : c < st.contexts.size
  complete
    : ∀ {s : Symbol} {n : Node}, defs.lookup s = some n → ((st.context c).slots[s]?).isSome

variable {st after : Store} {defs : List (Symbol × Node)} {c k : ContextId} {s t : Symbol}
  {node tree : Node} {slot : Slot}

/-- The store that a session starts with is stocked with nothing, since it has no slots. -/
theorem stocked_start (arrangements : Nat → Arrangement)
    : (start .standard arrangements).Stocked [] first := by
  have none (c : ContextId) (s : Symbol)
      : ((start .standard arrangements).context c).slots[s]? = none := by
    cases c <;> simp [context, start, Context.empty]
  have absent {c : ContextId} {s : Symbol} {slot : Slot}
      (stored : ((start .standard arrangements).context c).slots[s]? = some slot) : False := by
    rw [none] at stored
    cases stored
  have unlisted {s : Symbol} {n : Node} (listed : List.lookup s [] = some n) : False := by
    cases listed
  refine ⟨⟨⟨.start _ _, fun stored => (absent stored).elim, fun stored => (absent stored).elim,
    fun listed => (unlisted listed).elim, fun listed => (unlisted listed).elim,
    fun stored => (absent stored).elim⟩, rfl⟩, ⟨.start _ _, Host.standard_sound_honest.1, ?_⟩,
    Nat.one_pos, fun listed => (unlisted listed).elim⟩
  rintro c slot v ⟨s, stored⟩ _
  exact (absent stored).elim

/-- A stocked store stands on itself. -/
theorem Stocked.standing (stocked : st.Stocked defs c)
    : st.Standing st :=
  ⟨rfl, rfl, stocked.recalls⟩

/-- What a run changes besides contexts leaves the stock as it is. -/
theorem Stocked.of_standing (stocked : st.Stocked defs c) (standing : st.Standing after)
    : after.Stocked defs c := by
  obtain ⟨⟨⟨_, known, plain, given, space, closed⟩, idle⟩, _, there, complete⟩ := stocked
  have means : after.Means = st.Means := by
    funext size slot v
    unfold Means Finds
    simp only [standing.context_eq]
  refine ⟨⟨⟨standing.recalls.coherent, ?_, ?_, given, space, ?_⟩, standing.forcing.trans idle⟩,
    means ▸ standing.recalls, ?_, ?_⟩
  · intro k t slot stored
    rw [standing.context_eq] at stored
    exact known stored
  · intro k t slot stored
    rw [standing.context_eq] at stored
    exact plain stored
  · intro k t slot stored
    rw [standing.context_eq] at stored ⊢
    exact closed stored
  · rw [standing.contexts]
    exact there
  · intro t n listed
    rw [standing.context_eq]
    exact complete listed

-----------------------------------------------------------------------------------------
-- Definitions
-----------------------------------------------------------------------------------------

/-- (Fits defs s tree) says that a symbol can be defined as a tree on top of other definitions. -/
structure Fits (defs : List (Symbol × Node)) (s : Symbol) (tree : Node) : Prop where
  fresh : defs.lookup s = none
  given : tree.isGiven
  space : s = .currentSpace → tree.constant? = some (.string coreSpace)
  closed
    : ∀ d ∈ tree.dependencies, d.qualify coreSpace = s ∨ (defs.lookup (d.qualify coreSpace)).isSome

/-- What is listed behind a new symbol is that symbol or was listed before. -/
theorem lookup_cons_eq_some {n : Node} (listed : ((s, tree) :: defs).lookup t = some n)
    : (t = s ∧ n = tree) ∨ defs.lookup t = some n := by
  rw [List.lookup_cons] at listed
  cases same : t == s with
  | true =>
      rw [same] at listed
      exact Or.inl ⟨beq_iff_eq.mp same, (Option.some.inj listed).symm⟩
  | false =>
      rw [same] at listed
      exact Or.inr listed

/-- What was defined before stays defined behind one more definition. -/
theorem lookup_cons_of_lookup {n : Node} (fresh : defs.lookup s = none)
    (listed : defs.lookup t = some n)
    : ((s, tree) :: defs).lookup t = some n := by
  have other : (t == s) = false := by
    refine beq_eq_false_iff_ne.mpr fun same => ?_
    rw [same, fresh] at listed
    cases listed
  rw [List.lookup_cons, other]
  exact listed

/-- A definition that fits leaves a store a library. Witness: the new context has what the one
before has, so that the definitions renewed there find what they refer to.
-/
theorem Stocked.library_define (stocked : st.Stocked defs c)
    (fits : Fits defs (s.qualify coreSpace) node.tree)
    : (st.define c coreSpace s node []).2.Library ((s.qualify coreSpace, node.tree) :: defs) := by
  obtain ⟨library, -, -, complete⟩ := stocked
  -- the slots of all contexts are the new one and renewals of older ones
  have slots {k : ContextId} {t : Symbol} {slot : Slot}
      (stored : ((st.define c coreSpace s node []).2.context k).slots[t]? = some slot)
      : (t = s.qualify coreSpace
          ∧ slot.node = node ∧ slot.bindings = [] ∧ slot.space = coreSpace)
        ∨ ∃ (d : ContextId) (old : Slot), (st.context d).slots[t]? = some old
            ∧ slot.node = old.node ∧ slot.bindings = old.bindings ∧ slot.space = old.space := by
    rw [context_define] at stored
    split at stored
    · exact (Context.slot_define stored).imp id fun ⟨old, before⟩ => ⟨c, old, before⟩
    · exact Or.inr ⟨k, slot, stored, rfl, rfl, rfl⟩
  refine ⟨⟨library.coherent.define, fun stored => ?known, fun stored => ?plain,
    fun listed => ?given, fun listed => ?space, fun {k t slot} stored d uses => ?closed⟩,
    library.idle⟩
  case known =>
    rcases slots stored with ⟨rfl, same, -⟩ | ⟨d, old, held, same, -⟩
    · rw [same]
      exact List.lookup_cons_self
    · rw [same]
      exact lookup_cons_of_lookup fits.fresh (library.known held)
  case plain =>
    rcases slots stored with ⟨-, -, bindings, space⟩ | ⟨d, old, held, -, bindings, space⟩
    · exact ⟨bindings, space⟩
    · rw [bindings, space]
      exact library.plain held
  case given =>
    rcases lookup_cons_eq_some listed with ⟨-, rfl⟩ | before
    · exact fits.given
    · exact library.given before
  case space =>
    rcases lookup_cons_eq_some listed with ⟨same, rfl⟩ | before
    · exact fits.space same.symm
    · exact library.space before
  case closed =>
    rw [context_define] at stored ⊢
    split at stored
    · rename_i new
      rw [if_pos new, Context.isSome_define]
      rcases Context.slot_define stored with ⟨-, same, -⟩ | ⟨old, held, same, -⟩
      · rw [same] at uses
        refine (fits.closed d uses).imp id fun listed => ?_
        obtain ⟨n, listed⟩ := Option.isSome_iff_exists.mp listed
        exact complete listed
      · rw [same] at uses
        exact Or.inr (library.closed held d uses)
    · rename_i old
      rw [if_neg old]
      exact library.closed stored d uses

/-- A definition that fits is added to the stock. -/
theorem Stocked.define (stocked : st.Stocked defs c)
    (fits : Fits defs (s.qualify coreSpace) node.tree)
    : (st.define c coreSpace s node []).2.Stocked ((s.qualify coreSpace, node.tree) :: defs)
        (st.define c coreSpace s node []).1 := by
  have means {size : Nat} {slot : Slot} {v : Value} (means : st.Means size slot v)
      : (st.define c coreSpace s node []).2.Means size slot v := by
    unfold Means at means ⊢
    cases shape : slot.node.shape <;> rw [shape] at means
    case lambda params rest body =>
      obtain ⟨k, identity, ⟨t, stored⟩, made⟩ := means
      refine ⟨k, identity, ⟨t, ?_⟩, made⟩
      rw [context_define_of_lt (lt_size_of_slot stored)]
      exact stored
    all_goals exact means
  have defined : Recalls st.Means (st.define c coreSpace s node []).2 := stocked.recalls.define
  refine ⟨stocked.library_define fits, ⟨defined.coherent, defined.sound,
    fun found known => means (defined.known found known)⟩, ?_, fun {t n} listed => ?_⟩
  · rw [size_define]
    exact Nat.lt_succ_self _
  · change (((st.define c coreSpace s node []).2.context st.contexts.size).slots[t]?).isSome
    rw [context_define, if_pos rfl, Context.isSome_define]
    exact (lookup_cons_eq_some listed).imp And.left stocked.complete

end Store

end IncrementalLisp
