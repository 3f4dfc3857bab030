import IncrementalLisp.Proofs.Machine.Run
import IncrementalLisp.Proofs.Value.References

/-! Scopes: which contexts are held while a computation goes on. Only the contexts that values refer
to matter to what it is to have them at hand, and those that are held already do not matter.
-/

namespace IncrementalLisp

/-- Values refer to what the first ones do and what the others do. Witness: induction on the first
ones.
-/
theorem contextsOfAll_append (values others : List Value)
    : contextsOfAll (values ++ others) = contextsOfAll values ++ contextsOfAll others := by
  induction values with
  | nil => rfl
  | cons v rest ih => rw [List.cons_append, contextsOfAll, contextsOfAll, ih, List.append_assoc]

-----------------------------------------------------------------------------------------
-- Scopes
-----------------------------------------------------------------------------------------

namespace Scope

variable (scope : Scope)

/-- To enter a context makes no calls. -/
@[simp]
theorem callDepth_entering (c : ContextId)
    : (scope.entering c).callDepth = scope.callDepth :=
  rfl

/-- Neither does it change the bound on calls. -/
@[simp]
theorem callLimit_entering (c : ContextId)
    : (scope.entering c).callLimit = scope.callLimit :=
  rfl

/-- To have values at hand makes no calls. -/
@[simp]
theorem callDepth_holding (values : List Value)
    : (scope.holding values).callDepth = scope.callDepth :=
  rfl

/-- Neither does it change the bound on calls. -/
@[simp]
theorem callLimit_holding (values : List Value)
    : (scope.holding values).callLimit = scope.callLimit :=
  rfl

/-- In a context that context is held, beside those that are held anyway. -/
@[simp]
theorem held_entering (c d : ContextId)
    : (scope.entering c).held d = true ↔ c = d ∨ scope.held d = true := by
  simp [entering]

/-- The contexts of values at hand are held, beside those that are held anyway. -/
@[simp]
theorem held_holding (values : List Value) (c : ContextId)
    : (scope.holding values).held c = true ↔ c ∈ contextsOfAll values ∨ scope.held c = true := by
  simp [holding]

variable {scope}

/-- Scopes with the same calls are the same if they hold the same contexts. -/
theorem eq_of_held {other : Scope} (depth : scope.callDepth = other.callDepth)
    (limit : scope.callLimit = other.callLimit)
    (held : ∀ c, scope.held c = true ↔ other.held c = true)
    : scope = other := by
  obtain ⟨_, _, _⟩ := scope
  obtain ⟨_, _, _⟩ := other
  obtain rfl := depth
  obtain rfl := limit
  congr
  exact funext fun c => Bool.eq_iff_iff.mpr (held c)

/-- To enter a context that is held already changes nothing. -/
theorem entering_of_held {c : ContextId} (here : scope.held c = true)
    : scope.entering c = scope := by
  refine eq_of_held rfl rfl fun d => ?_
  rw [held_entering, or_iff_right_iff_imp]
  rintro rfl
  exact here

/-- To enter a context twice is to enter it once. -/
theorem entering_entering (scope : Scope) (c : ContextId)
    : (scope.entering c).entering c = scope.entering c :=
  entering_of_held ((held_entering ..).mpr (.inl rfl))

/-- To have values at hand whose contexts are held already changes nothing. -/
theorem holding_of_held {values : List Value}
    (here : ∀ c ∈ contextsOfAll values, scope.held c = true)
    : scope.holding values = scope := by
  refine eq_of_held rfl rfl fun c => ?_
  rw [held_holding, or_iff_right_iff_imp]
  exact here c

/-- In particular a form whose contexts are held, and expanders that refer to none. -/
theorem holding_form {e k : Expander} {form : Value}
    (hand : Among (scope.held · = true) form.contexts) (first : e.contexts = [])
    (onward : k.contexts = [])
    : scope.holding [.expander e, form, .expander k] = scope :=
  holding_of_held (among_contextsOfAll.mpr (by simpa [first, onward] using hand))

/-- Values that refer to no contexts hold none. -/
theorem holding_of_none {values : List Value} (none : contextsOfAll values = [])
    : scope.holding values = scope :=
  holding_of_held fun c member => by
    rw [none] at member
    cases member

/-- Values that refer to the same contexts hold the same. -/
theorem holding_congr {values others : List Value}
    (same : ∀ c, c ∈ contextsOfAll values ↔ c ∈ contextsOfAll others)
    : scope.holding values = scope.holding others := by
  refine eq_of_held rfl rfl fun c => ?_
  rw [held_holding, held_holding, same c]

/-- Values can be at hand one after the other. -/
theorem holding_append (values others : List Value)
    : scope.holding (values ++ others) = (scope.holding values).holding others := by
  refine eq_of_held rfl rfl fun c => ?_
  simp only [held_holding, contextsOfAll_append, List.mem_append]
  tauto

/-- A context can be entered before values are at hand or after that. -/
theorem holding_entering (scope : Scope) (c : ContextId) (values : List Value)
    : (scope.entering c).holding values = (scope.holding values).entering c := by
  refine eq_of_held rfl rfl fun d => ?_
  simp only [held_holding, held_entering]
  exact or_left_comm

end Scope

-----------------------------------------------------------------------------------------
-- Computations
-----------------------------------------------------------------------------------------

namespace Run

variable {α : Type}

/-- Runs with the same outcomes in all scopes and stores are the same. -/
theorem ext_outcome {x y : Run α}
    (same : ∀ scope st, x.outcome scope st = y.outcome scope st)
    : x = y :=
  funext fun scope => funext fun st => same scope st

/-- What is at hand makes no difference to what becomes of the result. -/
theorem map_holding {β : Type} (f : α → β) (values : List Value) (x : Run α)
    : f <$> holding values x = holding values (f <$> x) :=
  rfl

/-- Nothing need be at hand for a result that is there. -/
theorem holding_pure (values : List Value) (a : α)
    : holding values (pure a) = pure a :=
  rfl

/-- To go into a context twice is to go into it once. -/
theorem inContext_inContext (c : ContextId) (x : Run α)
    : inContext c (inContext c x) = inContext c x := by
  refine ext_outcome fun scope st => ?_
  rw [outcome_inContext, outcome_inContext, outcome_inContext, scope.entering_entering]

/-- Values that refer to the same contexts can be at hand for each other. -/
theorem holding_congr {values others : List Value}
    (same : ∀ c, c ∈ contextsOfAll values ↔ c ∈ contextsOfAll others) (x : Run α)
    : holding values x = holding others x :=
  ext_outcome fun _ st => congrArg (x.outcome · st) (Scope.holding_congr same)

/-- Values without contexts need not be at hand. -/
theorem holding_of_none {values : List Value} (none : contextsOfAll values = []) (x : Run α)
    : holding values x = x :=
  ext_outcome fun _ st => congrArg (x.outcome · st) (Scope.holding_of_none none)

/-- In particular no values need be. -/
@[simp]
theorem holding_nil (x : Run α)
    : holding [] x = x :=
  holding_of_none rfl x

/-- Several runs succeed if the first one does and then, while its result is at hand, the others. -/
theorem outcome_gather_cons_eq_ok {β : Type} {value : β → Value} {f : α → Run β} {scope : Scope}
    {a : α} {items : List α} {b : β} {bs : List β} {st after : Store}
    : (gather value f (a :: items)).outcome scope st = (.ok (b :: bs), after)
      ↔ ∃ middle, (f a).outcome scope st = (.ok b, middle)
          ∧ (gather value f items).outcome (scope.holding [value b]) middle = (.ok bs, after) := by
  rw [gather]
  simp only [outcome_bind_eq_ok]
  constructor
  · rintro ⟨_, middle, first, _, _, rest, ⟨⟩⟩
    exact ⟨middle, first, rest⟩
  · rintro ⟨middle, first, rest⟩
    exact ⟨b, middle, first, bs, after, rest, rfl⟩

end Run

-----------------------------------------------------------------------------------------
-- Values at hand
-----------------------------------------------------------------------------------------

/-- The values of bindings refer to what the bindings do. Witness: induction on these. -/
@[simp]
theorem contextsOfAll_values (b : Bindings)
    : contextsOfAll b.values = contextsOfBindings b := by
  induction b with
  | nil => rfl
  | cons entry rest ih =>
      rw [contextsOfBindings, ← ih]
      rfl

/-- Nodes refer as values to what they do as nodes. Witness: induction on these. -/
@[simp]
theorem contextsOfAll_map_node (nodes : List Node)
    : contextsOfAll (nodes.map .node) = contextsOfNodes nodes := by
  induction nodes with
  | nil => rfl
  | cons node rest ih =>
      rw [contextsOfNodes, ← ih]
      rfl

/-- So do the expressions of pairs. Witness: induction on these. -/
@[simp]
theorem contextsOfAll_map_expr (pairs : List (Symbol × Node))
    : contextsOfAll (pairs.map (.node ·.2)) = contextsOfPairs pairs := by
  induction pairs with
  | nil => rfl
  | cons pair rest ih =>
      rw [contextsOfPairs, ← ih]
      rfl

end IncrementalLisp
