import IncrementalLisp.Proofs.Simulation.Calls

/-! Slots computed from scratch, and all activities on every level. A value that is found instead of
computed was computed by an earlier run, so the two machines are compared on that run.
-/

namespace IncrementalLisp

open Store Run

variable {left right : Store}

-----------------------------------------------------------------------------------------
-- Constants
-----------------------------------------------------------------------------------------

section Constants

variable {m : Machine} {slot : Slot} {c : ContextId} {scope : Scope} {st : Store} {v : Value}

/-- To force a slot of a constant gives the constant, and at most remembers it. -/
theorem Machine.forceSlot_of_constant (constant : slot.node.constant? = some v)
    (coherent : st.Coherent) (found : st.Finds c slot)
    : (m.forceSlot slot c).outcome scope st = (.ok v, st)
      ∨ (m.forceSlot slot c).outcome scope st = (.ok v, st.remember slot v) := by
  unfold Machine.forceSlot
  rw [outcome_bind, outcome_get]
  dsimp only
  cases known : st.value? slot with
  | some w =>
      obtain ⟨k, stored⟩ := found
      obtain rfl := coherent.fixed stored constant known
      exact Or.inl rfl
  | none =>
      unfold Machine.computeSlot
      simp only [constant]
      exact Or.inr rfl

/-- The machines of the history record constants as computed by them. -/
theorem Machine.records_ofLevels (last : Store) (n : Nat)
    : (Machine.ofLevels n).Records last (Computes last) where
  forces := by
    intro slot v c scope st constant coherent found
    cases n with
    | zero => exact Or.inl rfl
    | succ n => exact Or.inr (forceSlot_of_constant constant coherent found)
  constant := by
    intro slot v c st constant recalls leads found settled
    have ran : ((Machine.ofLevels 0).computeSlot slot c).outcome (.outermost 0) st
        = (.ok v, st) := by
      unfold Machine.computeSlot
      simp only [constant]
      rfl
    exact .ran recalls.coherent recalls.sound recalls.known found settled ran leads (Nat.le_refl _)

/-- The machines from scratch record constants as alike to those of the history. -/
theorem Machine.records_tracked (left right : Store) (n : Nat)
    : (Machine.tracked n).Records right (Repeats left right) where
  forces := by
    intro slot v c scope st constant coherent found
    cases n with
    | zero => exact Or.inl rfl
    | succ n => exact Or.inr (forceSlot_of_constant constant coherent found)
  constant := by
    intro other w d st' constant' recalls' _ found' _ n slot finder scope st after v similar recalls
      found _ ran leads
    have fit := similar.fit
    have constants := fit.node.constant?
    rw [constant'] at constants
    cases constant : slot.node.constant? with
    | none =>
        rw [constant] at constants
        cases constants
    | some u =>
        rw [constant] at constants
        cases constants with
        | some alike =>
            obtain ⟨rfl, rfl⟩ := computeSlot_of_constant constant ran
            refine ⟨recalls, alike.mono (Matched.within id ?_ ?_)⟩
            · obtain ⟨k, stored⟩ := found
              exact Nat.le_of_lt (Nat.lt_of_le_of_lt (recalls.coherent.owned stored)
                (lt_size_of_slot stored))
            · obtain ⟨k, stored⟩ := found'
              exact Nat.le_of_lt (Nat.lt_of_le_of_lt (recalls'.coherent.owned stored)
                (lt_size_of_slot stored))

end Constants

-----------------------------------------------------------------------------------------
-- Slots
-----------------------------------------------------------------------------------------

/-- The value that a machine gives a slot was known before, or it is computed and remembered. -/
theorem Machine.value_of_forceSlot {m : Machine} {slot : Slot} {c : ContextId} {scope : Scope}
    {st after : Store} {v : Value}
    (ran : (m.forceSlot slot c).outcome scope st = (.ok v, after))
    : (st.value? slot = some v ∧ after = st)
      ∨ ∃ middle, (m.computeSlot slot c).outcome scope st = (.ok v, middle)
          ∧ after = middle.remember slot v := by
  unfold Machine.forceSlot at ran
  rw [outcome_bind_eq_ok] at ran
  obtain ⟨_, _, ⟨⟩, ran⟩ := ran
  cases known : st.value? slot with
  | some w =>
      simp only [known] at ran
      cases ran
      exact Or.inl ⟨rfl, rfl⟩
  | none =>
      simp only [known] at ran
      rw [outcome_bind_eq_ok] at ran
      obtain ⟨w, middle, computed, ran⟩ := ran
      cases ran
      exact Or.inr ⟨middle, computed, rfl⟩

namespace Machine.Simulates

/-- Similar slots are computed to alike values. -/
theorem computeSlot {m m' : Machine} [m.Follows Leads] [m'.Follows Leads]
    (machines : m.Simulates left right m') (stores : left.Comparable right) {N N' : Nat}
    {slot other : Slot} {finder finder' : ContextId} (similar : left.Similar right slot other)
    (found : left.Finds finder slot) (found' : right.Finds finder' other)
    (known : (left.context finder).space?.isSome) (known' : (right.context finder').space?.isSome)
    (old : finder < N) (old' : finder' < N')
    : Run.Simulates left right N N' (fun n n' v w => v.Alike (left.Matches right n n') w)
        (m.computeSlot slot finder) (m'.computeSlot other finder') := by
  have fit := similar.fit
  have younger : slot.owner ≤ N := by
    obtain ⟨k, stored⟩ := found
    exact Nat.le_of_lt (Nat.lt_of_le_of_lt (stores.coherent.owned stored) old)
  have younger' : other.owner ≤ N' := by
    obtain ⟨k, stored⟩ := found'
    exact Nat.le_of_lt (Nat.lt_of_le_of_lt (stores.coherent'.owned stored) old')
  have constants := fit.node.constant?
  unfold Machine.computeSlot
  cases varies : slot.node.constant? with
  | some v =>
      rw [varies] at constants
      generalize other.node.constant? = o at constants
      cases constants with
      | some alike =>
          exact .pure fun _ _ bound bound' => alike.mono
            (Matched.within id (Nat.le_trans younger bound) (Nat.le_trans younger' bound'))
  | none =>
      rw [varies] at constants
      generalize other.node.constant? = o at constants
      cases constants
      apply Simulates.insideSlot
      refine (machines.contextOf stores similar varies found found' known known' old old').bind
        fun bound bound' matched => machines.compute ?_ ?_ matched
      · exact fit.node.mono
          (Matched.within id (Nat.le_trans younger bound) (Nat.le_trans younger' bound'))
      · exact fit.bindings.mono
          (Matched.within id (Nat.le_trans younger bound) (Nat.le_trans younger' bound'))

end Machine.Simulates

/-- A slot that was forced is found where it is found later, since only new contexts come in
between.
-/
theorem Machine.finds_of_forceSlot {m : Machine} [m.Follows Leads] {slot : Slot} {c : ContextId}
    {scope : Scope} {st after last : Store} {v : Value} (old : c < st.contexts.size)
    (found : last.Finds c slot) (ran : (m.forceSlot slot c).outcome scope st = (.ok v, after))
    (leads : after.Extends last)
    : st.Finds c slot := by
  rcases Machine.value_of_forceSlot ran with ⟨_, rfl⟩ | ⟨middle, computed, rfl⟩
  · exact leads.finds_before old found
  · have onward : st.Leads ((m.computeSlot slot c).outcome scope st).2 :=
      Run.Follows.follows scope st
    rw [computed] at onward
    have later : c < middle.contexts.size := Nat.lt_of_lt_of_le old onward.grows.1
    obtain ⟨k, stored⟩ := found
    rw [leads.same c later] at stored
    exact ⟨k, (onward.grows.2 c old).symm ▸ stored⟩

/-- A value that a slot is given in the history comes from a run that computed it, then or before.
-/
theorem Machine.origin_of_value {n : Nat} {slot : Slot} {c : ContextId} {scope : Scope}
    {st after : Store} {v : Value} (recalls : Recalls (Computes left) st) (found : st.Finds c slot)
    (settled : (left.context c).space?.isSome)
    (ran : ((Machine.ofLevels n).forceSlot slot c).outcome scope st = (.ok v, after))
    (leads : after.Extends left)
    : ∃ levels finder surroundings before ended,
        Recalls (Computes left) before ∧ before.Finds finder slot
        ∧ (left.context finder).space?.isSome
        ∧ ((Machine.ofLevels levels).computeSlot slot finder).outcome surroundings before
          = (.ok v, ended)
        ∧ ended.Extends left ∧ ended.contexts.size ≤ after.contexts.size
        ∧ (Recalls (Computes left) ended → Recalls (Computes left) after) := by
  rcases Machine.value_of_forceSlot ran with ⟨known, rfl⟩ | ⟨middle, computed, rfl⟩
  · obtain ⟨coherent, sound, earlier, held, somewhere, ran, leads, bound⟩ :=
      recalls.known found known
    exact ⟨_, _, _, _, _, ⟨coherent, sound, earlier⟩, held, somewhere, ran, leads, bound,
      fun _ => recalls⟩
  · have onward : st.Leads (((Machine.ofLevels n).computeSlot slot c).outcome scope st).2 :=
      Run.Follows.follows scope st
    rw [computed] at onward
    have fixed : ∀ w, slot.node.constant? = some w → v = w :=
      fun w constant => (computeSlot_of_constant constant computed).1
    have later : middle.Extends left :=
      Leads.onward (.single (.remember (onward.finds found) fixed)) leads
    refine ⟨n, c, scope, st, middle, recalls, found, settled, computed, later, Nat.le_refl _, ?_⟩
    intro kept
    exact kept.remember (onward.finds found) fixed (.ran recalls.coherent recalls.sound
      recalls.known found settled computed later (Nat.le_refl _))

namespace Machine.Simulates

/-- A slot is given a value from scratch that repeats those of the history. Witness: either value
was computed by a run, and the machines below simulate each other on the two runs.
-/
theorem forceSlot {k : Nat} (machines : ∀ n, (ofLevels n).Simulates left right (tracked k))
    (stores : left.Comparable right) {N N' n : Nat} {slot other : Slot} {c d : ContextId}
    (similar : left.Similar right slot other)
    (matched : left.Matches right N N' (fun _ => False) c d) (found : left.Finds c slot)
    (found' : right.Finds d other)
    : Run.Simulates left right N N' (fun n n' v w => v.Alike (left.Matches right n n') w)
        ((ofLevels n).forceSlot slot c) ((tracked k).forceSlot other d) := by
  constructor
  intro scope scope' st st' after after' v w bound bound' recalls recalls' ran ran' leads leads'
  obtain ⟨old, old', space, here, there, _⟩ := matched
  have held := finds_of_forceSlot (Nat.lt_of_lt_of_le old bound) found ran leads
  have held' := finds_of_forceSlot (Nat.lt_of_lt_of_le old' bound') found' ran' leads'
  obtain ⟨levels, finder, surroundings, before, ended, earlier, finds, settled, computed, led, size,
    keeps⟩ := origin_of_value recalls held (by rw [here]; rfl) ran leads
  rcases Machine.value_of_forceSlot ran' with ⟨known, rfl⟩ | ⟨middle, computed', rfl⟩
  · obtain ⟨kept, alike⟩ :=
      recalls'.known held' known levels slot finder surroundings before ended v
      similar earlier finds settled computed led
    exact ⟨keeps kept, recalls', alike.mono (Matched.within id size (Nat.le_refl _))⟩
  · have onward' : st'.Leads (((tracked k).computeSlot other d).outcome scope' st').2 :=
      Run.Follows.follows scope' st'
    rw [computed'] at onward'
    have fixed : ∀ u, other.node.constant? = some u → w = u :=
      fun u constant => (computeSlot_of_constant constant computed').1
    have led' : middle.Extends right :=
      Leads.onward (.single (.remember (onward'.finds held') fixed)) leads'
    have compared {levels : Nat} {slot : Slot} {finder : ContextId} {surroundings : Scope}
        {before ended : Store} {v : Value} (similar : left.Similar right slot other)
        (earlier : Recalls (Computes left) before) (finds : before.Finds finder slot)
        (settled : (left.context finder).space?.isSome)
        (computed : ((ofLevels levels).computeSlot slot finder).outcome surroundings before
          = (.ok v, ended)) (led : ended.Extends left)
        : Recalls (Computes left) ended ∧ Recalls (Repeats left right) middle
          ∧ v.Alike (left.Matches right ended.contexts.size middle.contexts.size) w := by
      have went : before.Leads (((ofLevels levels).computeSlot slot finder).outcome surroundings
          before).2 := Run.Follows.follows surroundings before
      rw [computed] at went
      have finder_lt : finder < before.contexts.size := by
        obtain ⟨k, stored⟩ := finds
        exact lt_size_of_slot stored
      exact ((machines levels).computeSlot stores similar
        ((Leads.onward went led).finds finds) found'
        settled (by rw [there]; rfl) finder_lt (Nat.lt_of_lt_of_le old' bound')).ends
          (Nat.le_refl _)
        (Nat.le_refl _) earlier recalls' computed computed' led led'
    obtain ⟨kept, kept', alike⟩ := compared similar earlier finds settled computed led
    refine ⟨keeps kept, kept'.remember (onward'.finds held') fixed ?_,
      alike.mono (Matched.within id size (Nat.le_refl _))⟩
    intro levels slot finder surroundings before ended v similar earlier finds settled computed led
    obtain ⟨kept, _, alike⟩ := compared similar earlier finds settled computed led
    exact ⟨kept, alike⟩

/-- The machines from scratch repeat what the machines of the history do. Witness: induction on the
levels of the former, for all levels of the latter.
-/
theorem ofLevels_tracked (stores : left.Comparable right) (k n : Nat)
    : (ofLevels n).Simulates left right (tracked k) := by
  induction k generalizing n with
  | zero =>
      refine ⟨records_ofLevels left n, records_tracked left right 0, ?_, ?_, ?_⟩
      · exact fun _ _ _ => .of_right exhausted_ne_ok
      · exact fun _ _ => .of_right exhausted_ne_ok
      · exact fun _ _ _ _ => .of_right exhausted_ne_ok
  | succ k ih =>
      refine ⟨records_ofLevels left n, records_tracked left right (k + 1), ?_, ?_, ?_⟩
      · cases n with
        | zero => exact fun _ _ _ => .of_left exhausted_ne_ok
        | succ n =>
            intro N N' node node' c d b b' alike bindings matched
            exact ((ih n).evalTracked stores alike bindings matched).holding.inContext c d
      · cases n with
        | zero => exact fun _ _ => .of_left exhausted_ne_ok
        | succ n =>
            intro N N' callee callee' args args' c d callees values
            exact (ih n).callTracked stores callees values
      · cases n with
        | zero => exact fun _ _ _ _ => .of_left exhausted_ne_ok
        | succ n =>
            intro N N' slot other c d similar matched found found'
            exact (forceSlot ih stores similar matched found found').inContext c d

end Machine.Simulates

end IncrementalLisp
