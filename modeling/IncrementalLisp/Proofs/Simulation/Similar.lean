import IncrementalLisp.Proofs.Node.Alike
import IncrementalLisp.Proofs.Store.Coherent

/-! Similar slots. A slot of one store is similar to a slot of another when they have alike nodes
and bindings in the same namespace, and whatever the evaluation of the one reads in its owner is
similar to what the evaluation of the other reads in its own. Similarity is the greatest relation
of this kind, so that slots which depend on each other in a circle can be similar too.
-/

namespace IncrementalLisp

/-- The namespace that a value of the symbol of namespaces stands for. -/
def Value.asSpace : Value → String
  | .string space => space
  | _ => coreSpace

/-- The namespace of a context, if no evaluation is needed to know it. -/
def Context.space? (c : Context)
    : Option String :=
  match c.slots[Symbol.currentSpace]? with
  | none => some coreSpace
  | some slot => slot.node.constant?.map Value.asSpace

/-- (s.Spelled space e) says that a look-up of the symbol in the namespace may try the second one.
-/
def Symbol.Spelled (space : String) (s e : Symbol)
    : Prop :=
  e = s ∨ e = s.qualify space ∨ e = s.qualify coreSpace

/-- A set has the spellings of its symbols. Witness: induction on the symbols. -/
theorem SymbolSet.mem_spellings {names : SymbolSet} {space : String} {e : Symbol}
    : e ∈ names.spellings space ↔ ∃ s ∈ names, s.Spelled space e := by
  have onward (list : List Symbol) (found : SymbolSet)
      : e ∈ list.foldl (fun all s =>
            all.insert s |>.insert (s.qualify space) |>.insert (s.qualify coreSpace)) found
        ↔ e ∈ found ∨ ∃ s ∈ list, s.Spelled space e := by
    induction list generalizing found with
    | nil => simp
    | cons s rest ih =>
        rw [List.foldl_cons, ih]
        simp only [Std.ExtTreeSet.mem_insert, Std.LawfulEqCmp.compare_eq_iff_eq, List.mem_cons,
          exists_eq_or_imp, Symbol.Spelled]
        grind
  unfold SymbolSet.spellings
  rw [Std.ExtTreeSet.foldl_eq_foldl_toList, onward]
  simp

namespace Store

/-- A relation of the slots of one store with those of another. -/
abbrev Pairing := Slot → Slot → Prop

variable (left right : Store)

/-- (left.Agree right R e c d) says that a symbol has related slots in two contexts, or none. -/
def Agree (R : Pairing) (e : Symbol) (c d : ContextId)
    : Prop :=
  Option.Rel R (left.context c).slots[e]? (right.context d).slots[e]?

/-- (left.Matched right R size size') relates those of the first contexts of two stores that have
the same namespace and agree on some names, however they are spelled.
-/
def Matched (R : Pairing) (size size' : Nat)
    : Match :=
  fun names c d =>
    c < size ∧ d < size'
      ∧ ∃ space, (left.context c).space? = some space ∧ (right.context d).space? = some space
        ∧ ∀ s, names s → ∀ e, s.Spelled space e → left.Agree right R e c d

/-- What two slots have in common when what they read is related. -/
structure Fit (R : Pairing) (slot other : Slot) : Prop where
  node : slot.node.Alike (left.Matched right R slot.owner other.owner) other.node
  bindings
    : BindingsAlike (left.Matched right R slot.owner other.owner) slot.bindings other.bindings
  space : slot.node.constant? = none → other.space = slot.space
  settled
    : slot.node.constant? = none
      → (left.context slot.owner).space?.isSome ∧ (right.context other.owner).space?.isSome
  reads
    : slot.node.constant? = none
      → ∀ s, slot.node.Free slot.bindings s → ∀ e, s.Spelled slot.space e
      → left.Agree right R e slot.owner other.owner

/-- The greatest relation of slots that fit. -/
def Similar (slot other : Slot)
    : Prop :=
  ∃ R : Pairing, (∀ {T U}, R T U → left.Fit right R T U) ∧ R slot other

variable {left right} {R Q : Pairing}

/-- Contexts agree on a symbol for any wider relation of slots. -/
theorem Agree.mono (wider : ∀ {T U}, R T U → Q T U) {e : Symbol} {c d : ContextId}
    (agree : left.Agree right R e c d)
    : left.Agree right Q e c d := by
  unfold Agree at agree ⊢
  generalize (left.context c).slots[e]? = o, (right.context d).slots[e]? = o' at agree ⊢
  cases agree with
  | none => exact .none
  | some related => exact .some (wider related)

/-- Contexts match for any wider relation of slots and any later stores. -/
theorem Matched.mono (wider : ∀ {T U}, R T U → Q T U) {size size' later later' : Nat}
    (grows : size ≤ later) (grows' : size' ≤ later') {names : Symbol → Prop} {c d : ContextId}
    (matched : left.Matched right R size size' names c d)
    : left.Matched right Q later later' names c d := by
  obtain ⟨old, old', space, here, there, agree⟩ := matched
  refine ⟨Nat.lt_of_lt_of_le old grows, Nat.lt_of_lt_of_le old' grows', space, here, there, ?_⟩
  intro s known e spelled
  exact (agree s known e spelled).mono wider

/-- So their likeness is within that of the latter. -/
theorem Matched.within (wider : ∀ {T U}, R T U → Q T U) {size size' later later' : Nat}
    (grows : size ≤ later) (grows' : size' ≤ later')
    : (left.Matched right R size size').likeness.Within
        (left.Matched right Q later later').likeness :=
  Match.within (Matched.mono wider grows grows')

/-- Contexts that match for some names match for fewer. -/
theorem Matched.fewer {size size' : Nat} {names fewer : Symbol → Prop} {c d : ContextId}
    (matched : left.Matched right R size size' names c d) (within : ∀ s, fewer s → names s)
    : left.Matched right R size size' fewer c d := by
  obtain ⟨old, old', space, here, there, agree⟩ := matched
  exact ⟨old, old', space, here, there, fun s known => agree s (within s known)⟩

/-- Slots fit for any wider relation of slots. -/
theorem Fit.mono (wider : ∀ {T U}, R T U → Q T U) {slot other : Slot}
    (fit : left.Fit right R slot other)
    : left.Fit right Q slot other where
  node := fit.node.mono (Matched.within wider (Nat.le_refl _) (Nat.le_refl _))
  bindings := fit.bindings.mono (Matched.within wider (Nat.le_refl _) (Nat.le_refl _))
  space := fit.space
  settled := fit.settled
  reads := fun varies s free e spelled => (fit.reads varies s free e spelled).mono wider

/-- Similar slots fit, by what is similar. -/
theorem Similar.fit {slot other : Slot} (similar : left.Similar right slot other)
    : left.Fit right (left.Similar right) slot other := by
  obtain ⟨R, fits, related⟩ := similar
  exact (fits related).mono fun inner => ⟨R, fits, inner⟩

/-- Slots are similar when a relation whose slots fit, by it or by what is similar, holds of them.
-/
theorem Similar.of_fits
    (fits : ∀ {T U}, R T U → left.Fit right (fun S V => R S V ∨ left.Similar right S V) T U)
    {slot other : Slot} (related : R slot other)
    : left.Similar right slot other := by
  refine ⟨fun S V => R S V ∨ left.Similar right S V, ?_, Or.inl related⟩
  rintro T U (inner | similar)
  · exact fits inner
  · exact similar.fit.mono Or.inr

-----------------------------------------------------------------------------------------
-- Contexts derived from others
-----------------------------------------------------------------------------------------

/-- What a slot reads in its owner it reads in every context that has the slot. -/
theorem Coherent.read_of_owner {st : Store} (coherent : st.Coherent) {c : ContextId} {k : Symbol}
    {slot : Slot} (stored : (st.context c).slots[k]? = some slot) {s e : Symbol}
    (depends : s ∈ slot.node.dependencies) (spelled : s.Spelled slot.space e)
    : (st.context slot.owner).slots[e]? = (st.context c).slots[e]? := by
  apply coherent.agrees stored
  refine .single ⟨slot, stored, ?_⟩
  rw [coherent.spelled stored]
  exact SymbolSet.mem_spellings.mpr ⟨s, depends, spelled⟩

/-- The contexts that have two slots agree on what the slots read when their owners do. -/
theorem Fit.reads_at (coherent : left.Coherent) (coherent' : right.Coherent) {slot other : Slot}
    (fit : left.Fit right R slot other) (varies : slot.node.constant? = none) {c d : ContextId}
    {k l : Symbol} (stored : (left.context c).slots[k]? = some slot)
    (stored' : (right.context d).slots[l]? = some other) {s e : Symbol}
    (free : slot.node.Free slot.bindings s) (spelled : s.Spelled slot.space e)
    : left.Agree right R e c d := by
  have agree := fit.reads varies s free e spelled
  have depends : s ∈ other.node.dependencies := by
    rw [fit.node.dependencies_eq]
    exact free.1
  unfold Agree at agree ⊢
  rwa [coherent.read_of_owner stored free.1 spelled,
    coherent'.read_of_owner stored' depends (by rwa [fit.space varies])] at agree

/-- (st.Derives o p q) says that a context has the slots of an older one, some of them renewed,
but for one symbol.
-/
def Derives (st : Store) (o p : ContextId) (q : Symbol)
    : Prop :=
  o ≤ p
    ∧ ∀ e ≠ q,
        (st.context p).slots[e]? = (st.context o).slots[e]?
        ∨ (st.context p).slots[e]? = (st.context o).slots[e]?.map (·.ownedBy p)

/-- A context derives from itself. -/
theorem Derives.refl (st : Store) (o : ContextId) (q : Symbol)
    : st.Derives o o q :=
  ⟨Nat.le_refl o, fun _ _ => Or.inl rfl⟩

/-- A slot of a derived context is, but for its owner, one of the context that it derives from. -/
theorem Derives.origin {st : Store} (coherent : st.Coherent) {o p : ContextId} {q e : Symbol}
    (derives : st.Derives o p q) (other : e ≠ q) {slot : Slot}
    (stored : (st.context p).slots[e]? = some slot)
    : ∃ old, (st.context o).slots[e]? = some old ∧ old.owner ≤ slot.owner
        ∧ (slot = old ∨ slot = old.ownedBy p) := by
  rcases derives.2 e other with same | renewed
  · rw [stored] at same
    exact ⟨slot, same.symm, Nat.le_refl _, Or.inl rfl⟩
  · rw [stored] at renewed
    obtain ⟨old, held, rfl⟩ := Option.map_eq_some_iff.mp renewed.symm
    exact ⟨old, held, Nat.le_trans (coherent.owned held) derives.1, Or.inr rfl⟩

/-- The definition of a slot that derives from an older one is that of the older one. -/
theorem Derives.definition {p : ContextId} {slot old : Slot}
    (shape : slot = old ∨ slot = old.ownedBy p)
    : slot.node = old.node ∧ slot.bindings = old.bindings ∧ slot.space = old.space
      ∧ (slot.owner = old.owner ∨ slot.owner = p) := by
  rcases shape with rfl | rfl
  · exact ⟨rfl, rfl, rfl, Or.inl rfl⟩
  · exact ⟨rfl, rfl, rfl, Or.inr rfl⟩

/-- The slots that two derived contexts have in the place of similar ones, and the new ones that
they have under one symbol.
-/
inductive Onward (left right : Store) (o p o' p' : ContextId) (q : Symbol) (new : Prop)
    : Pairing where
  | derived {e : Symbol} {slot other : Slot} (differs : e ≠ q)
      (agree : left.Agree right (left.Similar right) e o o')
      (stored : (left.context p).slots[e]? = some slot)
      (stored' : (right.context p').slots[e]? = some other)
      : Onward left right o p o' p' q new slot other
  | new {slot other : Slot} (holds : new)
      (stored : (left.context p).slots[q]? = some slot)
      (stored' : (right.context p').slots[q]? = some other)
      : Onward left right o p o' p' q new slot other

section Deriving

variable (coherent : left.Coherent) (coherent' : right.Coherent) {o p o' p' : ContextId}
  {q : Symbol} {new : Prop} (derives : left.Derives o p q) (derives' : right.Derives o' p' q)

include derives derives' in
/-- Contexts that were made by definitions agree on any other symbol on which the old ones agree. -/
theorem Onward.agree {e : Symbol} (differs : e ≠ q)
    (agree : left.Agree right (left.Similar right) e o o')
    : left.Agree right (left.Onward right o p o' p' q new) e p p' := by
  have present : (left.context p).slots[e]?.isSome = (right.context p').slots[e]?.isSome := by
    have before : (left.context o).slots[e]?.isSome = (right.context o').slots[e]?.isSome := by
      unfold Agree at agree
      generalize (left.context o).slots[e]? = x, (right.context o').slots[e]? = x' at agree
      cases agree <;> rfl
    rcases derives.2 e differs with h | h <;> rcases derives'.2 e differs with h' | h'
      <;> simp [h, h', before]
  unfold Agree
  cases stored : (left.context p).slots[e]? with
  | none =>
      cases stored' : (right.context p').slots[e]? with
      | none => exact .none
      | some other => simp [stored, stored'] at present
  | some slot =>
      cases stored' : (right.context p').slots[e]? with
      | none => simp [stored, stored'] at present
      | some other => exact .some (.derived differs agree stored stored')

include coherent coherent' derives derives' in
/-- Contexts that derive from two others agree wherever these do, and on a new slot if it fits
wherever they agreed on the one before it. Witness: a slot reads in its owner what it reads in the
derived context, and what it reads there either derives from what it read before or is new.
-/
theorem Derives.similar
    (settled : (left.context p).space?.isSome ∧ (right.context p').space?.isSome)
    (link : left.Agree right (left.Similar right) q o o' → new)
    (fits
      : new → left.Agree right
          (left.Fit right fun S T =>
            left.Onward right o p o' p' q new S T ∨ left.Similar right S T) q p p')
    : (∀ e ≠ q, left.Agree right (left.Similar right) e o o'
          → left.Agree right (left.Similar right) e p p')
      ∧ (new → left.Agree right (left.Similar right) q p p') := by
  have renewed (holds : new) : left.Agree right (left.Onward right o p o' p' q new) q p p' := by
    have fit := fits holds
    unfold Agree at fit ⊢
    cases stored : (left.context p).slots[q]? with
    | none =>
        cases stored' : (right.context p').slots[q]? with
        | none => exact .none
        | some other =>
            rw [stored, stored'] at fit
            cases fit
    | some slot =>
        cases stored' : (right.context p').slots[q]? with
        | none =>
            rw [stored, stored'] at fit
            cases fit
        | some other => exact .some (.new holds stored stored')
  have onward {e : Symbol} (agree : left.Agree right (left.Similar right) e o o')
      : left.Agree right (left.Onward right o p o' p' q new) e p p' := by
    by_cases same : e = q
    · subst same
      exact renewed (link agree)
    · exact Onward.agree derives derives' same agree
  have similar {slot other : Slot} (related : left.Onward right o p o' p' q new slot other)
      : left.Similar right slot other := by
    refine Similar.of_fits ?_ related
    intro slot other related
    cases related with
    | @derived e _ _ differs agree stored stored' =>
        obtain ⟨old, held, younger, shape⟩ := derives.origin coherent differs stored
        obtain ⟨old', held', younger', shape'⟩ := derives'.origin coherent' differs stored'
        have fit : left.Fit right (left.Similar right) old old' := by
          unfold Agree at agree
          rw [held, held'] at agree
          cases agree with
          | some similar => exact similar.fit
        obtain ⟨node, bindings, space, owner⟩ := Derives.definition shape
        obtain ⟨node', bindings', space', owner'⟩ := Derives.definition shape'
        constructor
        · rw [node, node']
          exact fit.node.mono (Matched.within Or.inr younger younger')
        · rw [bindings, bindings']
          exact fit.bindings.mono (Matched.within Or.inr younger younger')
        · rw [node, space, space']
          exact fit.space
        · rw [node]
          intro varies
          have before := fit.settled varies
          constructor
          · rcases owner with same | own
            · rw [same]
              exact before.1
            · rw [own]
              exact settled.1
          · rcases owner' with same | own
            · rw [same]
              exact before.2
            · rw [own]
              exact settled.2
        · rw [node, bindings, space]
          intro varies s free e spelled
          have here : left.Agree right
              (fun S T => left.Onward right o p o' p' q new S T ∨ left.Similar right S T) e p p' :=
            (onward (fit.reads_at coherent coherent' varies held held' free spelled)).mono Or.inl
          have depends : s ∈ other.node.dependencies := by
            rw [node', fit.node.dependencies_eq]
            exact free.1
          unfold Agree at here ⊢
          rw [coherent.read_of_owner stored (by rw [node]; exact free.1) (by rwa [space]),
            coherent'.read_of_owner stored' depends (by rwa [space', fit.space varies])]
          exact here
    | new holds stored stored' =>
        have fit := fits holds
        unfold Agree at fit
        rw [stored, stored'] at fit
        cases fit with
        | some inner => exact inner
  constructor
  · intro e differs agree
    exact (onward agree).mono similar
  · intro holds
    exact (renewed holds).mono similar

end Deriving

end Store
end IncrementalLisp
