import IncrementalLisp.Proofs.Forcing.Circles

/-! The machines on circles of definitions. In a circle of slots without values, every computation
of one slot begins with that of another, until one is met again: then the machines report that it is
circular.
-/

namespace IncrementalLisp

open Store Run

/-- (st.Trap idle size c Z) says that symbols of a context form a circle, and that their slots are
idle and owned by one of the first contexts.
-/
structure Store.Trap (st : Store) (idle : Slot → Prop) (size : Nat) (c : ContextId)
    (Z : Set Symbol) : Prop where
  circle : st.Circle c Z
  idle
    : ∀ {k : Symbol} {slot : Slot},
        k ∈ Z → (st.context c).slots[k]? = some slot → idle slot ∧ slot.owner < size
  space : (st.context c).space?.isSome

/-- (Fails Z x scope st) says that a run ends for want of fuel, or with the error of a circular
definition for one of some symbols.
-/
def Run.Fails (Z : Set Symbol) {α : Type} (x : Run α) (scope : Scope) (st : Store)
    : Prop :=
  (x.outcome scope st).1 = .error .outOfFuel
    ∨ ∃ z ∈ Z, (x.outcome scope st).1 = .error (.error (.cyclicDependency z))

/-- A failure at one of some symbols is a failure at one of more symbols. -/
theorem Run.Fails.mono {Z Z' : Set Symbol} (wider : Z ⊆ Z') {α : Type} {x : Run α}
    {scope : Scope} {st : Store} (fails : Fails Z x scope st)
    : Fails Z' x scope st :=
  fails.imp_right fun ⟨z, member, same⟩ => ⟨z, wider member, same⟩

/-- A sequence fails as its first part does. -/
theorem Run.Fails.bind {Z : Set Symbol} {α β : Type} {x : Run α} {f : α → Run β} {scope : Scope}
    {st : Store} (fails : Fails Z x scope st)
    : Fails Z (x >>= f) scope st := by
  unfold Fails at fails ⊢
  rw [outcome_bind]
  rcases step : x.outcome scope st with ⟨result, after⟩
  rw [step] at fails
  rcases fails with same | ⟨z, member, same⟩ <;> cases same
  · exact .inl rfl
  · exact .inr ⟨z, member, rfl⟩

/-- A sequence fails if its second part does from every result of the first, and the first has no
errors.
-/
theorem Run.Unfailing.andFails {Z : Set Symbol} {α β : Type} {x : Run α} {f : α → Run β}
    {scope : Scope} {st : Store} (first : x.Unfailing)
    (second : ∀ a middle, x.outcome scope st = (.ok a, middle) → Fails Z (f a) scope middle)
    : Fails Z (x >>= f) scope st := by
  unfold Fails
  rw [outcome_bind]
  rcases step : x.outcome scope st with ⟨result, middle⟩
  cases result with
  | ok a => exact second a middle step
  | error h =>
      obtain rfl := first _ _ _ _ step
      exact .inl rfl

/-- A store that a sequence leads to extends the one that its first part leads to. -/
theorem Store.Extends.first {last : Store} {α β : Type} {x : Run α} {f : α → Run β} {scope : Scope}
    {st : Store} (follows : ∀ a, Run.Follows Leads (f a))
    (extended : ((x >>= f).outcome scope st).2.Extends last)
    : (x.outcome scope st).2.Extends last := by
  rw [outcome_bind] at extended
  rcases step : x.outcome scope st with ⟨result, middle⟩
  rw [step] at extended
  cases result with
  | error h => exact extended
  | ok a =>
      have leads : middle.Leads ((f a).outcome scope middle).2 := (follows a).follows scope middle
      exact leads.onward extended

namespace Machine

section Circular

variable {last : Store} {idle : Slot → Prop} {c p : ContextId} {Z : Set Symbol} {k s : Symbol}
  {slot : Slot} {scope : Scope} {st : Store}

/-- Machines that remember constants give no idle slot a value. -/
theorem records_idle (vary : ∀ slot, idle slot → slot.node.constant? = none) (n : Nat)
    : (ofLevels n).Records last fun _ slot _ => ¬idle slot where
  forces := (records_ofLevels last n).forces
  constant := by
    intro slot v c st constant _ _ _ _ isIdle
    rw [vary slot isIdle] at constant
    cases constant

instance lasting_idle : Lasting fun _ slot _ => ¬idle slot :=
  ⟨fun busy _ => busy⟩

/-- An idle slot is computed for its value. -/
theorem fails_forceSlot {m : Machine} (isIdle : idle slot) (found : st.Finds c slot)
    (recalls : Recalls (fun _ slot _ => ¬idle slot) st)
    (extended : ((m.forceSlot slot c).outcome scope st).2.Extends last)
    (computed
      : ((m.computeSlot slot c).outcome scope st).2.Extends last
        → Fails Z (m.computeSlot slot c) scope st)
    : Fails Z (m.forceSlot slot c) scope st := by
  have unknown : st.value? slot = none :=
    Option.eq_none_iff_forall_ne_some.mpr fun v known => recalls.known found known isIdle
  have same : (m.forceSlot slot c).outcome scope st
      = (m.computeSlot slot c >>= fun v => do
          modify (·.remember slot v)
          return v).outcome scope st := by
    unfold forceSlot
    rw [outcome_bind, outcome_get]
    dsimp only
    rw [unknown]
  have ended : ((m.computeSlot slot c).outcome scope st).2.Extends last := by
    rw [same, outcome_bind] at extended
    rcases step : (m.computeSlot slot c).outcome scope st with ⟨result, after⟩
    rw [step] at extended
    cases result <;> exact ⟨extended.size, extended.same, extended.types, extended.arrangements⟩
  unfold Fails
  rw [same]
  exact (computed ended).bind

/-- The evaluation of a node that begins with a look-up fails as the look-up does. Witness:
induction on the way to the look-up, with a level less for every part.
-/
theorem fails_eval {n : Node} {b : Bindings} (begins : n.Begins s) (unbound : b.lexical? s = none)
    (level : Nat)
    (valued
      : ∀ lower < level, ∀ {scope : Scope},
          (((ofLevels lower).valueOf p s).outcome scope st).2.Extends last
          → Fails Z ((ofLevels lower).valueOf p s) scope st)
    (extended : (((ofLevels level).eval n p b).outcome scope st).2.Extends last)
    : Fails Z ((ofLevels level).eval n p b) scope st := by
  induction begins generalizing level scope with
  | @lookup n shape =>
      cases level with
      | zero => exact .inl rfl
      | succ level =>
          have same : (ofLevels level).evalNode n p b = (do
              return (← (ofLevels level).valueOf p s, p)) := by
            unfold evalNode
            rw [shape]
            simp only [unbound]
          let around := (scope.entering p).holding (.node n :: b.values)
          change (((ofLevels level).evalNode n p b).outcome around st).2.Extends last at extended
          change Fails Z ((ofLevels level).evalNode n p b) around st
          rw [same] at extended ⊢
          exact (valued level (Nat.lt_succ_self _) (extended.first fun _ => inferInstance)).bind
  | @part n part first _ ih =>
      cases level with
      | zero => exact .inl rfl
      | succ level =>
          obtain ⟨values, rest, same, follows⟩ :=
            evalNode_of_first (P := Leads) (m := ofLevels level) (c := p) first b
          let around := (scope.entering p).holding (.node n :: b.values)
          change (((ofLevels level).evalNode n p b).outcome around st).2.Extends last at extended
          change Fails Z ((ofLevels level).evalNode n p b) around st
          rw [same] at extended ⊢
          have began := Store.Extends.first follows extended
          have fails : Fails Z ((ofLevels level).eval part p b) (around.holding values) st :=
            ih level (fun lower less => valued lower (Nat.lt_succ_of_lt less)) began
          exact Run.Fails.bind (x := Run.holding values ((ofLevels level).eval part p b)) fails

/-- The look-up of a symbol fails if the computation of the idle slot that it means does. -/
theorem fails_valueOf (vary : ∀ slot, idle slot → slot.node.constant? = none) (level : Nat)
    {space : String}
    (here : (last.context p).space? = some space)
    (means : (last.context p).slotIn? space s = some slot) (isIdle : idle slot)
    (old : p < st.contexts.size) (recalls : Recalls (fun _ slot _ => ¬idle slot) st)
    (computed
      : ∀ lower < level, ∀ {scope : Scope} {st : Store},
          p < st.contexts.size → Recalls (fun _ slot _ => ¬idle slot) st
          → (((ofLevels lower).computeSlot slot p).outcome scope st).2.Extends last
          → Fails Z ((ofLevels lower).computeSlot slot p) scope st)
    (extended : (((ofLevels level).valueOf p s).outcome scope st).2.Extends last)
    : Fails Z ((ofLevels level).valueOf p s) scope st := by
  refine (unfailing_slot? (ofLevels level) p s).andFails fun result later search => ?_
  unfold valueOf at extended
  rw [outcome_bind, search] at extended
  dsimp only at extended
  have searched : st.Leads (((ofLevels level).slot? p s).outcome scope st).2 :=
    Run.Follows.follows scope st
  rw [search] at searched
  have later : later.Extends last := by
    cases result with
    | none =>
        have leads : later.Leads ((do
            Run.fail (.unresolvedSymbol (← (ofLevels level).qualify p s)) : Run Value).outcome
              scope later).2 := Run.Follows.follows scope later
        exact leads.onward extended
    | some found =>
        have leads : later.Leads (((ofLevels level).force found p).outcome scope later).2 :=
          Machine.Follows.force (finds_of_slot? search)
        exact leads.onward extended
  obtain ⟨rfl, kept⟩ := (records_idle vary level).slot? recalls later old here search
  rw [means] at extended ⊢
  dsimp only at extended ⊢
  cases level with
  | zero => exact .inl rfl
  | succ level =>
      rw [means] at search
      exact fails_forceSlot isIdle (finds_of_slot? search) kept extended
        (computed level (Nat.lt_succ_self _) (Nat.lt_of_lt_of_le old searched.grows.1) kept)

variable {size : Nat} (coherent : last.Coherent)
  (settled : ∀ c < size, (last.context c).space?.isSome)
  (vary : ∀ slot, idle slot → slot.node.constant? = none)

include coherent settled vary

/-- The computation of a slot in a trap fails at a symbol of the trap. Witness: strong induction on
the levels; each slot of the trap begins with the next one, which is forced a level below.
-/
theorem fails_computeSlot (level : Nat) (trap : last.Trap idle size c Z) (member : k ∈ Z)
    (stored : (last.context c).slots[k]? = some slot) (old : c < st.contexts.size)
    (recalls : Recalls (fun _ slot _ => ¬idle slot) st)
    (extended : (((ofLevels level).computeSlot slot c).outcome scope st).2.Extends last)
    : Fails Z ((ofLevels level).computeSlot slot c) scope st := by
  induction level using Nat.strongRecOn generalizing c Z k slot scope st with
  | ind level ih =>
      obtain ⟨found, s, other, held, begins, unbound, meant, next⟩ := trap.circle.links k member
      obtain rfl := Option.some.inj (held.symm.trans stored)
      obtain ⟨isIdle, owned⟩ := trap.idle member stored
      have named : found.symbol = k := (coherent.indexed c).ownSymbol stored
      have whole : (ofLevels level).computeSlot found c = Run.insideSlot found (do
          let p ← (ofLevels level).contextOf found c
          (ofLevels level).compute found.node p found.bindings) := by
        unfold computeSlot
        rw [vary found isIdle]
      rw [whole] at extended ⊢
      unfold Fails
      rw [outcome_insideSlot] at extended ⊢
      split
      · exact .inr ⟨k, member, by rw [named]⟩
      rename_i outside
      rw [if_neg outside] at extended
      dsimp only at extended
      replace extended := (quiet_leave _ found.id).1.onward extended
      replace recalls := (quiet_enter st found.id).2 _ recalls
      have chooses := extended.first fun p => inferInstance
      refine (unfailing_contextOf (ofLevels level) c found).andFails fun p middle chosen => ?_
      rw [outcome_bind, chosen] at extended
      rw [chosen] at chooses
      dsimp only at extended chooses
      have leads : (st.enter found.id).Leads
          (((ofLevels level).contextOf found c).outcome scope (st.enter found.id)).2 :=
        Run.Follows.follows ..
      rw [chosen] at leads
      have before : (st.enter found.id).Extends last := leads.onward chooses
      have here : (st.enter found.id).Finds c found := ⟨k, by rw [← before.same c old]; exact stored⟩
      obtain ⟨o, ⟨e, there⟩, switches, -, young, kept⟩ :=
        (records_idle vary level).contextOf recalls chooses here (settled _ owned) trap.space chosen
      obtain rfl : k = e := named.symm.trans ((coherent.indexed o).ownSymbol there)
      have apart := trap.circle.apart k member
      have same {e : Symbol} (path : (last.context c).Reaches k e)
          : (last.context p).slots[e]? = (last.context c).slots[e]? :=
        coherent.agree_of_switches stored there switches apart path
      have uses {e : Symbol} (spelled : s.Spelled found.space e) : (last.context c).Reaches k e :=
        .single (coherent.uses_of_begins stored begins spelled)
      have narrower : {e ∈ Z | (last.context c).Reaches k e} ⊆ Z := fun _ listed => listed.1
      have onward : last.Trap idle size p {e ∈ Z | (last.context c).Reaches k e} :=
        { circle := trap.circle.transfer coherent narrower
            (fun listed path next => ⟨next, listed.2.trans path⟩)
            fun listed path => same (listed.2.trans_left path)
          idle := by
            rintro e slot ⟨listed, path⟩ held
            exact trap.idle listed ((same path).symm.trans held)
          space := by rw [switches.space?]; rfl }
      have means : (last.context p).slotIn? found.space s = some other :=
        (slotIn?_congr fun spelled => same (uses spelled)).trans meant
      have reached := uses (spelled_of_slotIn? coherent meant)
      have stored' := stored_of_slotIn? coherent means
      refine Fails.mono narrower
        (fails_eval begins unbound level ?_ (extended.first fun _ => inferInstance)).bind
      intro lower less inner ended
      refine fails_valueOf vary lower switches.space? means
        (trap.idle next ((same reached).symm.trans stored')).1 young kept ?_ ended
      intro least lesser scope st old recalls extended
      exact ih least (Nat.lt_trans lesser less) onward ⟨next, reached⟩ stored' old recalls extended

end Circular

end Machine

-----------------------------------------------------------------------------------------
-- Stores with a history
-----------------------------------------------------------------------------------------

namespace Store

/-- (st.Circular slot) says that a slot is that of a symbol in a circle. -/
def Circular (st : Store) (slot : Slot)
    : Prop :=
  ∃ c Z, st.Circle c Z ∧ slot.symbol ∈ Z ∧ (st.context c).slots[slot.symbol]? = some slot

/-- A slot in a circle is no constant, since it begins with a symbol. -/
theorem Circular.constant? {st : Store} {slot : Slot} (circular : st.Circular slot)
    : slot.node.constant? = none := by
  obtain ⟨c, Z, circle, member, stored⟩ := circular
  obtain ⟨found, _, _, held, begins, _⟩ := circle.links _ member
  obtain rfl := Option.some.inj (held.symm.trans stored)
  exact begins.constant?

/-- No run computes a value for a slot of a circle. Witness: induction on the run with all the runs
that it relies on.
-/
theorem Computes.not_circular {last : Store} (coherent : last.Coherent) (settled : last.Settled)
    {size : Nat} {slot : Slot} {v : Value} (computes : Computes last size slot v)
    : ¬last.Circular slot := by
  induction computes with
  | @ran n slot finder scope st after v _ coherent' sound _ found _ computed leads _ ih =>
      intro circular
      obtain ⟨c, Z, circle, member, stored⟩ := circular
      have onward : st.Leads (((Machine.ofLevels n).computeSlot slot finder).outcome scope st).2 :=
        Run.Follows.follows scope st
      rw [computed] at onward
      obtain ⟨k, there⟩ := (Leads.onward onward leads).finds found
      obtain rfl : slot.symbol = k := (coherent.indexed finder).ownSymbol there
      have narrower
          : {e ∈ Z | Relation.ReflTransGen (last.context c).Uses slot.symbol e} ⊆ Z :=
        fun _ listed => listed.1
      have same {e : Symbol} (path : Relation.ReflTransGen (last.context c).Uses slot.symbol e)
          : (last.context finder).slots[e]? = (last.context c).slots[e]? := by
        rcases Relation.reflTransGen_iff_eq_or_transGen.mp path with rfl | reached
        · rw [stored, there]
        · exact (coherent.agree_of_reaches stored there reached).2
      have circle' := circle.transfer coherent narrower
        (fun listed path next => ⟨next, listed.2.trans path.to_reflTransGen⟩)
        fun listed path => same (listed.2.trans path)
      have own {e : Symbol} {other : Slot} (held : (last.context finder).slots[e]? = some other)
          : other.symbol = e :=
        (coherent.indexed finder).ownSymbol held
      have trap : last.Trap last.Circular last.contexts.size finder _ :=
        { circle := circle'
          idle := by
            intro e other listed held
            obtain rfl := own held
            exact ⟨⟨finder, _, circle', listed, held⟩,
              Nat.lt_of_le_of_lt (coherent.owned held) (lt_size_of_slot held)⟩
          space := settled finder }
      have old : finder < st.contexts.size := by
        obtain ⟨e, held⟩ := found
        exact lt_size_of_slot held
      have fails : Fails _ ((Machine.ofLevels n).computeSlot slot finder) scope st :=
        Machine.fails_computeSlot coherent (fun c _ => settled c)
          (fun _ => Circular.constant?) n trap
          ⟨member, .refl⟩ there old ⟨coherent', sound, fun found known => ih found known⟩
          (by rw [computed]; exact leads)
      rw [Fails, computed] at fails
      rcases fails with never | ⟨_, _, never⟩ <;> cases never

/-- In a store with a history, symbols in a circle have no values. -/
theorem History.fails_of_circle {st : Store} (history : st.History) (settled : st.Settled)
    {c : ContextId} {Z : Set Symbol} (circle : st.Circle c Z) {s : Symbol} (member : s ∈ Z)
    (level : Nat) (scope : Scope)
    : Fails Z ((Machine.ofLevels level).valueOf c s) scope st := by
  have recalls := history.recalls (.refl st) settled
  have coherent := recalls.coherent
  generalize final : (((Machine.ofLevels level).valueOf c s).outcome scope st).2 = last
  have leads : st.Leads last := by
    rw [← final]
    exact Run.Follows.follows scope st
  have extended := leads.extends
  obtain ⟨slot, _, _, stored, _⟩ := circle.links s member
  have old : c < st.contexts.size := lt_size_of_slot stored
  have same : last.context c = st.context c := extended.same c old
  have named {e : Symbol} {other : Slot} (held : (st.context c).slots[e]? = some other)
      : other.symbol = e :=
    (coherent.indexed c).ownSymbol held
  have idle {e : Symbol} {other : Slot} (listed : e ∈ Z)
      (held : (st.context c).slots[e]? = some other) : st.Circular other := by
    obtain rfl := named held
    exact ⟨c, Z, circle, listed, held⟩
  have trap : last.Trap st.Circular st.contexts.size c Z :=
    { circle := ⟨by rw [same]; exact circle.links, by rw [same]; exact circle.apart⟩
      idle := by
        intro e other listed held
        rw [same] at held
        exact ⟨idle listed held, Nat.lt_of_le_of_lt (coherent.owned held) old⟩
      space := by rw [same]; exact settled c }
  have qualified : s.isQualified := (coherent.indexed c).qualified stored
  obtain ⟨space, here⟩ := Option.isSome_iff_exists.mp trap.space
  have means : (last.context c).slotIn? space s = some slot := by
    unfold Context.slotIn?
    rw [Symbol.qualify_of_isQualified _ qualified, Symbol.qualify_of_isQualified _ qualified, same,
      stored]
    rfl
  refine Machine.fails_valueOf (fun _ => Circular.constant?) level here means
    (idle member stored) old
    ⟨coherent, recalls.sound, fun found known =>
      (recalls.known found known).not_circular coherent settled⟩ ?_ (final ▸ .refl _)
  intro lower _ scope st' young kept ended
  exact Machine.fails_computeSlot (leads.coherent coherent)
    (fun c old => by rw [extended.same c old]; exact settled c)
    (fun _ => Circular.constant?) lower trap
    member (by rw [same]; exact stored) young kept ended

end Store

end IncrementalLisp
