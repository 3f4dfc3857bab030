import IncrementalLisp.Machine.Run

/-! The outcome of each kind of computation in a scope and a store.
-/

namespace IncrementalLisp

/-- The store after so many more tables. -/
def Store.afterTables (st : Store) (count : Nat)
    : Store :=
  { st with tables := st.tables + count }

/-- To enter a slot and to leave it gives back the slots that were being computed. -/
theorem Store.forcing_leave {st after : Store} {id : SlotId}
    (same : after.forcing = (st.enter id).forcing)
    : (after.leave id).forcing = st.forcing := by
  unfold leave
  dsimp only
  rw [same]
  exact List.erase_cons_head ..

/-- Tables that are drawn one after the other add up. -/
theorem Store.afterTables_add (st : Store) (m n : Nat)
    : (st.afterTables m).afterTables n = st.afterTables (m + n) := by
  unfold afterTables
  rw [Nat.add_assoc]

namespace Run

variable {α β : Type} (scope : Scope) (st : Store)

/-- A run and then another one ends as the other one does, or fails as the first. -/
theorem outcome_bind (x : Run α) (f : α → Run β)
    : (x >>= f).outcome scope st
      = match x.outcome scope st with
        | (.ok a, after) => (f a).outcome scope after
        | (.error h, after) => (.error h, after) := by
  change (ExceptT.bind (x scope) (fun a => f a scope)) st = _
  unfold ExceptT.bind ExceptT.mk
  simp only [bind, StateT.bind, outcome]
  rcases x scope st with ⟨result, after⟩
  cases result <;> rfl

/-- A run with a handler ends as it does, or as the handler does. -/
theorem outcome_tryCatch (x : Run α) (handler : Halt → Run α)
    : (tryCatch x handler : Run α).outcome scope st
      = match x.outcome scope st with
        | (.ok a, after) => (.ok a, after)
        | (.error h, after) => (handler h).outcome scope after := by
  change (ExceptT.tryCatch (x scope) (fun h => handler h scope)) st = _
  unfold ExceptT.tryCatch ExceptT.mk
  simp only [bind, StateT.bind, outcome]
  rcases x scope st with ⟨result, after⟩
  cases result <;> rfl

/-- A value that is returned is the outcome and leaves the store. -/
@[simp]
theorem outcome_pure (a : α)
    : (pure a : Run α).outcome scope st = (.ok a, st) :=
  rfl

/-- So is a halt that is thrown. -/
@[simp]
theorem outcome_throw (h : Halt)
    : (throw h : Run α).outcome scope st = (.error h, st) :=
  rfl

/-- To read the scope gives it and leaves the store. -/
@[simp]
theorem outcome_read
    : (read : Run Scope).outcome scope st = (.ok scope, st) :=
  rfl

/-- To read the store gives it and leaves it. -/
@[simp]
theorem outcome_get
    : (get : Run Store).outcome scope st = (.ok st, st) :=
  rfl

/-- To modify the store leaves the modified one. -/
@[simp]
theorem outcome_modify (f : Store → Store)
    : (modify f : Run Unit).outcome scope st = (.ok (), f st) :=
  rfl

/-- To modify the store and take a value from it gives both. -/
@[simp]
theorem outcome_modifyGet (f : Store → α × Store)
    : (modifyGet f : Run α).outcome scope st = (.ok (f st).1, (f st).2) :=
  rfl

/-- A run in changed surroundings is the run in the changed scope. -/
@[simp]
theorem outcome_withReader (f : Scope → Scope) (x : Run α)
    : (withReader f x : Run α).outcome scope st = x.outcome (f scope) st :=
  rfl

/-- A run in a context is the run in the scope that has entered it. -/
@[simp]
theorem outcome_inContext (c : ContextId) (x : Run α)
    : (inContext c x).outcome scope st = x.outcome (scope.entering c) st :=
  rfl

/-- A run while values are at hand is the run in the scope that holds them. -/
@[simp]
theorem outcome_holding (values : List Value) (x : Run α)
    : (holding values x).outcome scope st = x.outcome (scope.holding values) st :=
  rfl

/-- To ask for a context gives the one that the store has. -/
@[simp]
theorem outcome_context (c : ContextId)
    : (context c).outcome scope st = (.ok (st.context c), st) :=
  rfl

/-- A sequence that ends with a result went through a result of its first part. -/
theorem outcome_bind_eq_ok {x : Run α} {f : α → Run β} {scope : Scope} {st after : Store} {b : β}
    : (x >>= f).outcome scope st = (.ok b, after)
      ↔ ∃ a middle,
          x.outcome scope st = (.ok a, middle) ∧ (f a).outcome scope middle = (.ok b, after) := by
  rw [outcome_bind]
  rcases x.outcome scope st with ⟨result, middle⟩
  cases result with
  | error h => simp
  | ok a =>
      constructor
      · intro rest
        exact ⟨a, middle, rfl, rest⟩
      · rintro ⟨_, _, ⟨⟩, rest⟩
        exact rest

/-- A sequence whose first part ends with a result goes on from it. -/
theorem outcome_bind_of_eq_ok {x : Run α} {f : α → Run β} {scope : Scope} {st middle : Store}
    {a : α}
    (first : x.outcome scope st = (.ok a, middle))
    : (x >>= f).outcome scope st = (f a).outcome scope middle := by
  rw [outcome_bind, first]

/-- A sequence of runs succeeds if the first one does and then the others. -/
theorem outcome_mapM_cons_eq_ok {f : α → Run β} {scope : Scope} {a : α} {items : List α} {b : β}
    {bs : List β} {st after : Store}
    : ((a :: items).mapM f).outcome scope st = (.ok (b :: bs), after)
      ↔ ∃ middle, (f a).outcome scope st = (.ok b, middle)
          ∧ (items.mapM f).outcome scope middle = (.ok bs, after) := by
  rw [List.mapM_cons]
  simp only [outcome_bind_eq_ok]
  constructor
  · rintro ⟨_, middle, first, _, _, rest, ⟨⟩⟩
    exact ⟨middle, first, rest⟩
  · rintro ⟨middle, first, rest⟩
    exact ⟨b, middle, first, bs, after, rest, rfl⟩

/-- So it does if a first part of it does and then the rest, for results that are known. Witness:
induction on the first part.
-/
theorem outcome_mapM_append_eq_ok {f : α → Run β} {g : α → β} {scope : Scope}
    {items others : List α}
    {st after : Store}
    : ((items ++ others).mapM f).outcome scope st = (.ok ((items ++ others).map g), after)
      ↔ ∃ middle, (items.mapM f).outcome scope st = (.ok (items.map g), middle)
          ∧ (others.mapM f).outcome scope middle = (.ok (others.map g), after) := by
  induction items generalizing st with
  | nil =>
      constructor
      · intro rest
        exact ⟨st, rfl, rest⟩
      · rintro ⟨_, ⟨⟩, rest⟩
        exact rest
  | cons a items ih =>
      simp only [List.cons_append, List.map_cons, outcome_mapM_cons_eq_ok, ih]
      constructor
      · rintro ⟨next, first, middle, second, rest⟩
        exact ⟨middle, ⟨next, first, second⟩, rest⟩
      · rintro ⟨middle, ⟨next, first, second⟩, rest⟩
        exact ⟨next, first, middle, second, rest⟩

/-- An attempt succeeds with the error of the attempted computation; only fuel is not caught. -/
theorem outcome_attempt (x : Run α)
    : (attempt x).outcome scope st
      = match x.outcome scope st with
        | (.ok a, after) => (.ok (.ok a), after)
        | (.error (.error e), after) => (.ok (.error e), after)
        | (.error .outOfFuel, after) => (.error .outOfFuel, after) := by
  unfold attempt
  rw [outcome_tryCatch, outcome_bind]
  rcases x.outcome scope st with ⟨result, after⟩
  cases result with
  | ok a => rfl
  | error h => cases h <;> rfl

/-- A run inside a call fails if there are too many, and has one more call around it otherwise. -/
theorem outcome_insideCall (x : Run α)
    : (insideCall x).outcome scope st
      = if scope.callDepth < scope.callLimit then
          x.outcome { scope with callDepth := scope.callDepth + 1 } st
        else (.error (.error (.stackOverflow scope.callDepth scope.callLimit)), st) := by
  unfold insideCall
  rw [outcome_bind, outcome_read]
  dsimp only
  split <;> rfl

/-- A run that something is done after, however it ends, ends as it does. -/
theorem outcome_tryFinally_modify (x : Run α) (f : Store → Store)
    : (tryFinally x (modify f) : Run α).outcome scope st
      = ((x.outcome scope st).1, f (x.outcome scope st).2) := by
  unfold outcome tryFinally
  simp only [tryFinally', Functor.map, ExceptT.map, ExceptT.mk, StateT.bind, bind]
  rcases x scope st with ⟨result, after⟩
  cases result <;> rfl

/-- A run inside a slot fails if the slot is being computed. Otherwise the slot is entered before it
and left after it.
-/
theorem outcome_insideSlot (slot : Slot) (x : Run α)
    : (insideSlot slot x).outcome scope st
      = if st.forcing.contains slot.id then
          (.error (.error (.cyclicDependency slot.symbol)), st)
        else
          ((x.outcome scope (st.enter slot.id)).1,
            (x.outcome scope (st.enter slot.id)).2.leave slot.id) := by
  unfold insideSlot
  rw [outcome_bind, outcome_get]
  dsimp only
  split
  · rfl
  · rw [outcome_bind, outcome_modify]
    exact outcome_tryFinally_modify ..

/-- A run inside a slot has a result if the slot is not being computed and the run has it after the
slot was entered.
-/
theorem outcome_insideSlot_eq_ok {slot : Slot} {x : Run α} {scope : Scope} {st after : Store}
    {a : α}
    : (insideSlot slot x).outcome scope st = (.ok a, after)
      ↔ slot.id ∉ st.forcing
        ∧ ∃ middle, x.outcome scope (st.enter slot.id) = (.ok a, middle)
          ∧ middle.leave slot.id = after := by
  rw [outcome_insideSlot]
  rcases x.outcome scope (st.enter slot.id) with ⟨result, middle⟩
  by_cases circular : slot.id ∈ st.forcing
  · simp [circular]
  · rw [if_neg (by simpa using circular)]
    constructor
    · intro ran
      obtain ⟨rfl, rfl⟩ := Prod.mk.inj ran
      exact ⟨circular, middle, rfl, rfl⟩
    · rintro ⟨-, _, ⟨⟩, rfl⟩
      rfl

omit scope in
/-- Whoever needs an arrangement gets one, and the store counts one more table. -/
theorem outcome_arrangementIf (needed : Bool)
    : ∃ a, ∀ scope, (arrangementIf needed).outcome scope st
        = (.ok a, st.afterTables (if needed then 1 else 0)) := by
  cases needed <;> exact ⟨_, fun _ => rfl⟩

omit scope in
/-- A new table takes one arrangement if it has more than one item, and none otherwise. -/
theorem outcome_arrangementFor (count : Nat)
    : ∃ a, ∀ scope, (arrangementFor count).outcome scope st
        = (.ok a, st.afterTables (if 1 < count then 1 else 0)) := by
  obtain ⟨a, drawn⟩ := outcome_arrangementIf st (1 < count)
  refine ⟨a, fun scope => (drawn scope).trans ?_⟩
  simp only [decide_eq_true_eq]

/-- What the host answers, and the store with what it remembers. -/
theorem outcome_askHost {question : Host → Except EvalError α × Host}
    : (askHost question).outcome scope st
      = (match (question st.host).1 with
        | .ok v => .ok v
        | .error e => .error (.error e), { st with host := (question st.host).2 }) := by
  unfold askHost
  rw [outcome_bind, outcome_get]
  dsimp only
  rw [outcome_bind, outcome_modify]
  dsimp only
  cases (question st.host).1 <;> rfl

/-- A result is not the end of the fuel. -/
theorem ok_ne_outOfFuel {a : α} {st : Store}
    : ((.ok a, st) : Except Halt α × Store).1 ≠ .error .outOfFuel := by
  intro never
  cases never

end Run

end IncrementalLisp
