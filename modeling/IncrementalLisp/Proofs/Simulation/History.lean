import IncrementalLisp.Proofs.Simulation.Similar

/-! The values that a store remembers and where they come from. Every value of a slot was computed
once, by a run that ended before and that could rely on the values known at its beginning; so the
history of a store is a tree of such runs.
-/

namespace IncrementalLisp

namespace Store

/-- (st.Extends last) says that a store has all contexts of another, its types, and its arrangements
of tables.
-/
structure Extends (st last : Store) : Prop where
  size : st.contexts.size ≤ last.contexts.size
  same : ∀ c < st.contexts.size, last.context c = st.context c
  types : last.host.types = st.host.types
  arrangements : last.arrangements = st.arrangements

/-- A store that another one leads to extends it, by what every step keeps. -/
theorem Leads.extends {st last : Store} (leads : st.Leads last)
    : st.Extends last :=
  ⟨leads.grows.1, leads.grows.2, leads.host.1, leads.arrangements_eq⟩

/-- A store that extends an extension extends the first one. -/
theorem Extends.trans {st middle last : Store} (first : st.Extends middle)
    (second : middle.Extends last)
    : st.Extends last where
  size := Nat.le_trans first.size second.size
  same := by
    intro c old
    rw [second.same c (Nat.lt_of_lt_of_le old first.size), first.same c old]
  types := second.types.trans first.types
  arrangements := second.arrangements.trans first.arrangements

/-- What a run leads to is extended by what comes later. -/
theorem Leads.onward {st middle last : Store} (leads : st.Leads middle)
    (later : middle.Extends last)
    : st.Extends last :=
  leads.extends.trans later

/-- A slot that a context finds is still found in an extension. -/
theorem Extends.finds {st last : Store} (extended : st.Extends last) {c : ContextId} {slot : Slot}
    (found : st.Finds c slot)
    : last.Finds c slot := by
  obtain ⟨k, stored⟩ := found
  exact ⟨k, by rwa [extended.same c (lt_size_of_slot stored)]⟩

/-- A context that a store had already had the same slots then. -/
theorem Extends.finds_before {st last : Store} (extended : st.Extends last) {c : ContextId}
    {slot : Slot} (old : c < st.contexts.size) (found : last.Finds c slot)
    : st.Finds c slot := by
  obtain ⟨k, stored⟩ := found
  exact ⟨k, by rwa [← extended.same c old]⟩

/-- A property of the values of slots that stays true when the store grows. -/
class Lasting (K : Nat → Slot → Value → Prop) : Prop where
  widen : ∀ {size later : Nat} {slot : Slot} {v : Value}, K size slot v → size ≤ later →
    K later slot v

/-- A coherent store whose remembered values have a property. -/
structure Recalls (K : Nat → Slot → Value → Prop) (st : Store) : Prop where
  coherent : st.Coherent
  sound : st.host.Sound
  known
    : ∀ {c : ContextId} {slot : Slot} {v : Value},
        st.Finds c slot → st.value? slot = some v → K st.contexts.size slot v

section Steps

variable {K : Nat → Slot → Value → Prop} {st : Store}

/-- A definition adds slots without values only. -/
theorem Recalls.define [Lasting K] (recalls : Recalls K st) {c : ContextId} {space : String}
    {s : Symbol} {node : Node} {b : Bindings}
    : Recalls K (st.define c space s node b).2 where
  coherent := recalls.coherent.define
  sound := recalls.sound
  known := by
    rintro k slot v ⟨e, stored⟩ known
    rw [size_define]
    have before : ∃ k, st.Finds k slot := by
      rw [context_define] at stored
      split at stored
      · rcases recalls.coherent.added_slot stored with own | ⟨old, _, _⟩
        · exact absurd own (Nat.ne_of_lt (recalls.coherent.remembered known))
        · exact ⟨c, e, old⟩
      · exact ⟨k, e, stored⟩
    obtain ⟨k, found⟩ := before
    exact Lasting.widen (recalls.known found known) (Nat.le_succ _)

/-- A store that recalls its values still does when a slot remembers a fit one. -/
theorem Recalls.remember (recalls : Recalls K st) {c : ContextId} {slot : Slot} {v : Value}
    (found : st.Finds c slot) (fixed : ∀ w, slot.node.constant? = some w → v = w)
    (holds : K st.contexts.size slot v)
    : Recalls K (st.remember slot v) where
  coherent := recalls.coherent.remember found fixed
  sound := recalls.sound
  known := by
    intro k other w held known
    simp only [value?, Store.remember, Std.ExtTreeMap.getElem?_insert,
      Std.LawfulEqCmp.compare_eq_iff_eq] at known
    split at known
    · rename_i same
      obtain rfl := recalls.coherent.eq_of_id found held same
      rw [← Option.some.inj known]
      exact holds
    · exact recalls.known held known

/-- A step that neither adds contexts nor remembers a value. -/
theorem Recalls.aside {after : Store} (recalls : Recalls K st) (step : Step st after)
    (contexts : after.contexts = st.contexts) (values : after.values = st.values)
    (sound : after.host.Sound)
    : Recalls K after where
  coherent := step.coherent recalls.coherent
  sound := sound
  known := by
    intro c slot v found known
    unfold Finds context at found
    unfold value? at known
    rw [contexts] at found ⊢
    rw [values] at known
    exact recalls.known found known

/-- (st.Quiet after) says that steps lead from one store to the other which remember no value. -/
def Quiet (st after : Store)
    : Prop :=
  st.Leads after
    ∧ ∀ (K : Nat → Slot → Value → Prop) [Lasting K], Recalls K st → Recalls K after

/-- To enter a slot remembers nothing. -/
theorem quiet_enter (st : Store) (id : SlotId)
    : st.Quiet (st.enter id) :=
  ⟨.single (.enter ..), fun _ _ recalls => recalls.aside (.enter ..) rfl rfl recalls.sound⟩

/-- Neither does it to leave one. -/
theorem quiet_leave (st : Store) (id : SlotId)
    : st.Quiet (st.leave id) :=
  ⟨.single (.leave ..), fun _ _ recalls => recalls.aside (.leave ..) rfl rfl recalls.sound⟩

/-- Whatever a run does between the values that it remembers is quiet. -/
instance course_quiet : Course Quiet where
  refl := ⟨.refl, fun _ _ recalls => recalls⟩
  trans := fun first second =>
    ⟨first.1.trans second.1, fun K _ recalls => second.2 K (first.2 K recalls)⟩
  define := ⟨Course.define, fun _ _ recalls => recalls.define⟩
  identity :=
    ⟨Course.identity, fun _ _ recalls => recalls.aside (.identity _) rfl rfl recalls.sound⟩
  arrange := ⟨Course.arrange, fun _ _ recalls => recalls.aside (.arrange _) rfl rfl recalls.sound⟩
  output := ⟨Course.output, fun _ _ recalls => recalls.aside (.output ..) rfl rfl recalls.sound⟩
  host := fun next =>
    ⟨Course.host next, fun _ _ recalls => recalls.aside (.host next) rfl rfl
      (recalls.sound.next next)⟩
  collected :=
    ⟨Course.collected, fun _ _ recalls => recalls.aside (.collected ..) rfl rfl recalls.sound⟩
  slot := fun {st after id} inside =>
    ⟨Course.slot inside.1, fun K _ recalls =>
      (quiet_leave after id).2 K (inside.2 K ((quiet_enter st id).2 K recalls))⟩

end Steps

-----------------------------------------------------------------------------------------
-- Values by their runs
-----------------------------------------------------------------------------------------

/-- (Computes last size slot v) says that a run, before the last store had more than so many
contexts, computed the value of the slot, and that the values it could rely on were computed so
too.
-/
inductive Computes (last : Store) : Nat → Slot → Value → Prop where
  | ran {n : Nat} {slot : Slot} {finder : ContextId} {scope : Scope} {st after : Store} {v : Value}
      {size : Nat} (coherent : st.Coherent) (sound : st.host.Sound)
      (known
        : ∀ {c : ContextId} {other : Slot} {w : Value},
            st.Finds c other → st.value? other = some w
            → Computes last st.contexts.size other w)
      (found : st.Finds finder slot)
      (settled : (last.context finder).space?.isSome)
      (computed : ((Machine.ofLevels n).computeSlot slot finder).outcome scope st = (.ok v, after))
      (leads : after.Extends last)
      (bound : after.contexts.size ≤ size)
      : Computes last size slot v

instance lasting_computes (last : Store) : Lasting (Computes last) where
  widen := by
    rintro size later slot v ⟨coherent, sound, known, found, settled, computed, leads, bound⟩ grows
    exact .ran coherent sound known found settled computed leads (Nat.le_trans bound grows)

/-- A store all of whose contexts have a namespace that no evaluation is needed to know. -/
def Settled (st : Store)
    : Prop :=
  ∀ c, (st.context c).space?.isSome

/-- (st.Onto after) says that steps lead from one store to the other which remember only what runs
compute, as far as their contexts are settled in the end.
-/
def Onto (st after : Store)
    : Prop :=
  st.Leads after
    ∧ ∀ last, after.Extends last → last.Settled
        → Recalls (Computes last) st → Recalls (Computes last) after

/-- A quiet step leads onto its store: it remembers nothing. -/
theorem Quiet.onto {st after : Store} (quiet : st.Quiet after)
    : st.Onto after :=
  ⟨quiet.1, fun last _ _ => quiet.2 (Computes last)⟩

/-- The machines remember only what they compute. -/
instance recollection_onto : Recollection Machine.ofLevels Onto where
  refl := (Course.refl : Quiet _ _).onto
  trans := by
    intro st middle after first second
    refine ⟨first.1.trans second.1, ?_⟩
    intro last leads settled recalls
    exact second.2 last leads settled (first.2 last (second.1.onward leads) settled recalls)
  define := (Course.define : Quiet _ _).onto
  identity := (Course.identity : Quiet _ _).onto
  arrange := (Course.arrange : Quiet _ _).onto
  output := (Course.output : Quiet _ _).onto
  host := fun next => (Course.host next : Quiet _ _).onto
  collected := (Course.collected : Quiet _ _).onto
  slot := by
    intro st after id inside
    refine ⟨Course.slot inside.1, ?_⟩
    intro last leads settled recalls
    have left : after.Extends last := (quiet_leave after id).1.onward leads
    apply (quiet_leave after id).2 (Computes last)
    exact inside.2 last left settled ((quiet_enter st id).2 (Computes last) recalls)
  remember := by
    intro n slot finder scope st after v found _ ran onto
    have fixed : ∀ w, slot.node.constant? = some w → v = w :=
      fun w constant => (computeSlot_of_constant constant ran).1
    have step : Step after (after.remember slot v) :=
      .remember (onto.1.finds found) fixed
    refine ⟨onto.1.tail step, ?_⟩
    intro last leads settled recalls
    have later : after.Extends last := Leads.onward (.single step) leads
    apply (onto.2 last later settled recalls).remember (onto.1.finds found) fixed
    exact .ran recalls.coherent recalls.sound recalls.known found (settled _) ran later
      (Nat.le_refl _)

end Store
end IncrementalLisp
