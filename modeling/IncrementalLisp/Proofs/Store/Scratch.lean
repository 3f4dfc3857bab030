import IncrementalLisp.Proofs.Simulation.Copies

/-! Values that are never stale. The value of a symbol in a context is the value that evaluation
from scratch gives it, in a copy of the context and with nothing remembered, as long as that
evaluation reads no more than what the dependencies of slots account for.
-/

namespace IncrementalLisp

open Run

namespace Store

/-- (st.History) says that definitions, look-ups of values and runs of whole texts lead to the store
from one with a single, empty context.
-/
inductive History : Store → Prop where
  | start {host : Host} (sound : host.Sound) (arrangements : Nat → Arrangement)
      : History (.start host arrangements)
  | define {st : Store} (history : History st) (levels : Nat) (c : ContextId) (s : Symbol)
      (node : Node) (b : Bindings) (scope : Scope)
      : History (((Machine.ofLevels levels).define c s node b).outcome scope st).2
  | value {st : Store} (history : History st) (levels : Nat) (c : ContextId) (s : Symbol)
      (scope : Scope)
      : History (((Machine.ofLevels levels).valueOf c s).outcome scope st).2
  | run {st : Store} (history : History st) (levels : Nat) (config : Config) (reading : Reading)
      (c : ContextId) (scope : Scope)
      : History (((Machine.ofLevels levels).run config reading c).outcome scope st).2
  | load {st : Store} (history : History st) (levels : Nat) (reading : Reading) (c : ContextId)
      (scope : Scope)
      : History (((Machine.ofLevels levels).load reading c).outcome scope st).2
  | bootstrap {st : Store} (history : History st) (levels : Nat) (c : ContextId) (scope : Scope)
      : History (((Machine.ofLevels levels).bootstrap c).outcome scope st).2
  | prelude {st : Store} (history : History st) (levels : Nat) (c : ContextId) (scope : Scope)
      : History (((Machine.ofLevels levels).corePrelude c).outcome scope st).2
  | keeping {st : Store} (history : History st) (kept : List ContextId)
      : History (st.keeping kept)

/-- A store extends itself. -/
theorem Extends.refl (st : Store)
    : st.Extends st :=
  ⟨Nat.le_refl _, fun _ _ => rfl, rfl, rfl⟩

/-- A store remembers only what runs in its history computed. -/
theorem History.recalls {st last : Store} (history : st.History) (extended : st.Extends last)
    (settled : last.Settled)
    : Recalls (Computes last) st := by
  have onward {α : Type} (x : Run α) [follows : Run.Follows Onto x] {scope : Scope} {st : Store}
      (recalls : st.Extends last → Recalls (Computes last) st)
      (extended : (x.outcome scope st).2.Extends last)
      : Recalls (Computes last) (x.outcome scope st).2 := by
    have onto := follows.follows scope st
    exact onto.2 last extended settled (recalls (onto.1.onward extended))
  induction history with
  | start sound arrangements =>
      refine ⟨.start _ _, sound, ?_⟩
      intro c slot v _ known
      simp [value?, Store.start] at known
  | define history levels c s node b scope ih => exact onward _ ih extended
  | value history levels c s scope ih => exact onward _ ih extended
  | run history levels config reading c scope ih => exact onward _ ih extended
  | load history levels reading c scope ih => exact onward _ ih extended
  | bootstrap history levels c scope ih => exact onward _ ih extended
  | prelude history levels c scope ih => exact onward _ ih extended
  | keeping history kept ih =>
      have recalls := ih ⟨extended.size, extended.same, extended.types, extended.arrangements⟩
      exact recalls.aside (.keeping _ kept) rfl rfl recalls.sound

/-- What was computed before a store was extended counts as computed after it. -/
theorem Computes.onward {st last : Store} {size : Nat} {slot : Slot} {v : Value}
    (computes : Computes st size slot v) (extended : st.Extends last)
    : Computes last size slot v := by
  induction computes with
  | @ran n slot finder scope before after _ _ coherent sound _ found settled computed leads bound ih =>
      refine .ran coherent sound ih found ?_ computed (leads.trans extended) bound
      have went : before.Leads (((Machine.ofLevels n).computeSlot slot finder).outcome scope before).2 :=
        Run.Follows.follows scope before
      rw [computed] at went
      obtain ⟨k, stored⟩ := found
      have old : finder < after.contexts.size :=
        Nat.lt_of_lt_of_le (lt_size_of_slot stored) went.grows.1
      rw [extended.same finder (Nat.lt_of_lt_of_le old leads.size)]
      exact settled

/-- A store that recalls what evaluates in it recalls what evaluates in an extension. -/
theorem Recalls.onward {st last : Store} (recalls : Recalls (Computes st) st)
    (extended : st.Extends last)
    : Recalls (Computes last) st where
  coherent := recalls.coherent
  sound := recalls.sound
  known := fun found known => (recalls.known found known).onward extended

/-- The value of a symbol repeats in a fresh copy of its context. Witness: the contexts have similar
slots under every name, so the machines simulate each other from there.
-/
theorem Duplicates.value_eq {base fresh : Store} {c d : ContextId}
    (duplicates : base.Duplicates fresh c d) (recalls : Recalls (Computes base) base)
    (settled : base.Settled) (grounded : base.Grounded) (types : fresh.host.types = base.host.types)
    (order : ∀ k k', fresh.arrangements k' = base.arrangements k) (scratch : ∀ K, Recalls K fresh)
    {s : Symbol} {levels levels' : Nat} {scope scope' : Scope}
    {after after' : Store} {v w : Value}
    (ran : ((Machine.ofLevels levels).valueOf c s).outcome scope base = (.ok v, after))
    (ran' : ((Machine.tracked levels').valueOf d s).outcome scope' fresh = (.ok w, after'))
    (plain : v.isPlain)
    : v = w := by
  have leads : base.Leads (((Machine.ofLevels levels).valueOf c s).outcome scope base).2 :=
    Run.Follows.follows scope base
  have leads' : fresh.Leads (((Machine.tracked levels').valueOf d s).outcome scope' fresh).2 :=
    Run.Follows.follows scope' fresh
  rw [ran] at leads
  rw [ran'] at leads'
  have extended := leads.extends
  have extended' := leads'.extends
  have coherent' := (scratch fun _ _ _ => True).coherent
  have stores : after.Comparable after' :=
    ⟨leads.coherent recalls.coherent, leads'.coherent coherent',
      by rw [extended'.types, extended.types, types],
      by rwa [extended'.arrangements, extended.arrangements]⟩
  have matched : after.Matches after' base.contexts.size fresh.contexts.size
      (fun _ => True) c d := by
    obtain ⟨space, here⟩ := Option.isSome_iff_exists.mp (settled c)
    refine ⟨duplicates.old, duplicates.new, space, ?_, ?_, ?_⟩
    · rw [extended.same c duplicates.old, here]
    · rw [extended'.same d duplicates.new, duplicates.space?_copy, here]
    · intro _ _ e _
      exact (duplicates.agree_copy extended extended' e).mono
        (duplicates.similar recalls.coherent settled grounded extended extended')
  have machines := Machine.Simulates.ofLevels_tracked stores levels' levels
  obtain ⟨_, _, alike⟩ := (machines.valueOf (s := s) matched trivial).ends (Nat.le_refl _)
    (Nat.le_refl _) (recalls.onward extended) (scratch _) ran ran' (.refl _) (.refl _)
  exact (alike.eq_of_plain plain).symm

-----------------------------------------------------------------------------------------
-- No stale values
-----------------------------------------------------------------------------------------

/-- A store extends to itself with a copy of a context, and so to what is left when that is made to
forget all values.
-/
theorem duplicates_copied {st : Store} {c : ContextId} (there : c < st.contexts.size)
    : st.Duplicates (st.copied c).forgotten c st.contexts.size where
  size := (extends_copied st c).size
  same := (extends_copied st c).same
  old := there
  new := by
    change _ < (st.copied c).contexts.size
    rw [size_copied]
    exact Nat.lt_succ_self _
  below := Nat.le_of_lt there
  copy := by
    intro k
    change ((st.copied c).context st.contexts.size).slots[k]? = _
    rw [context_copied, if_pos rfl, Context.getElem?_ownedBy]

/-- The copy is a copy of itself. -/
theorem duplicates_itself (st : Store) (c : ContextId)
    : (st.copied c).Duplicates (st.copied c).forgotten st.contexts.size st.contexts.size where
  size := Nat.le_refl _
  same := fun _ _ => rfl
  old := by
    rw [size_copied]
    exact Nat.lt_succ_self _
  new := by
    change _ < (st.copied c).contexts.size
    rw [size_copied]
    exact Nat.lt_succ_self _
  below := Nat.le_refl _
  copy := by
    intro k
    change ((st.copied c).context st.contexts.size).slots[k]? = _
    rw [context_copied, if_pos rfl, Context.getElem?_ownedBy, Option.map_map]
    rfl

/-- Every context has a namespace still once one is copied. -/
theorem Settled.copied {st : Store} (settled : st.Settled) (c : ContextId)
    : (st.copied c).Settled := by
  intro k
  rw [context_copied]
  split
  · have same : ((st.context c).ownedBy st.contexts.size).space? = (st.context c).space? := by
      unfold Context.space?
      rw [Context.getElem?_ownedBy]
      cases (st.context c).slots[Symbol.currentSpace]? <;> rfl
    rw [same]
    exact settled c
  · exact settled k

/-- A store stays grounded when a context is copied, under a new owner that there is. -/
theorem Grounded.copied {st : Store} (grounded : st.Grounded) (c : ContextId)
    : (st.copied c).Grounded where
  owned := by
    rintro k slot ⟨e, stored⟩
    rw [size_copied]
    rcases slot_of_copied stored with ⟨rfl, old, _, rfl⟩ | ⟨_, held⟩
    · exact Nat.lt_succ_self _
    · exact Nat.lt_succ_of_lt (grounded.owned ⟨e, held⟩)
  slot := by
    rintro k slot ⟨e, stored⟩
    rcases slot_of_copied stored with ⟨rfl, old, held, rfl⟩ | ⟨_, held⟩
    · exact (grounded.slot ⟨e, held⟩).mono (Nat.le_of_lt (grounded.owned ⟨e, held⟩))
    · exact grounded.slot ⟨e, held⟩
  value := by
    intro id v known
    rw [size_copied]
    exact (grounded.value known).mono (Nat.le_succ _)
  sound := grounded.sound
  honest := grounded.honest

/-- No value is stale: if the evaluation of a symbol from scratch, in a fresh copy of a context and
with nothing remembered, reads no more than dependencies account for and has a result, then that
is the only plain value that the symbol can have in the context itself, whatever was computed in
any order before, and in the copy. All tables must hand their items out in one order, since the
tables of two evaluations may differ in it.
-/
theorem values_never_stale {st : Store} (history : st.History) (settled : st.Settled)
    (grounded : st.Grounded) (order : ∀ k k', st.arrangements k' = st.arrangements k)
    {c : ContextId} (there : c < st.contexts.size) {s : Symbol}
    {levels : Nat} {scope : Scope} {after : Store} {w : Value}
    (scratch
      : ((Machine.tracked levels).valueOf st.contexts.size s).outcome scope (st.copied c).forgotten
        = (.ok w, after))
    : (∀ levels scope v after,
          ((Machine.ofLevels levels).valueOf c s).outcome scope st = (.ok v, after)
          → v.isPlain → v = w)
      ∧ ∀ levels scope v after,
          ((Machine.ofLevels levels).valueOf st.contexts.size s).outcome scope (st.copied c)
            = (.ok v, after)
          → v.isPlain → v = w := by
  have recalls := history.recalls (.refl st) settled
  have copied : Recalls (Computes (st.copied c)) (st.copied c) :=
    (recalls.onward (extends_copied st c)).copied c
  have scratched (K) : Recalls K (st.copied c).forgotten :=
    .forgotten copied.coherent copied.sound
  constructor
  · intro levels scope v after ran plain
    exact (duplicates_copied there).value_eq recalls settled grounded rfl order scratched ran
      scratch plain
  · intro levels scope v after ran plain
    exact (duplicates_itself st c).value_eq copied (settled.copied c)
      (grounded.copied c) rfl order scratched ran scratch plain

end Store
end IncrementalLisp
