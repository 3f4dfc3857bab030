import IncrementalLisp.Proofs.Machine.Scope
import IncrementalLisp.Proofs.View.Store

/-! Runs that a view does not tell apart. Two runs agree in a view if from stores that look alike
they come to the same end, as far as the view tells: to results that look alike, to errors that
look alike, or both to the end of their fuel, and in any case to stores that look alike. What
looks alike in the results is said by a function of them.
-/

namespace IncrementalLisp

/-- A store that fits a view during computations in some contexts: its host respects the view, and
the contexts that the view absorbs are kept or among those.
-/
structure View.Fits (V : View) (around : List ContextId) (st : Store) : Prop where
  host : st.host.Respects V
  kept : V.absorbed ⊆ around ++ st.kept

/-- Scopes that a view does not tell apart: they hold the same contexts, but for those that the
view absorbs, and both hold the given ones.
-/
structure Scope.LooksLike (V : View) (around : List ContextId) (scope scope' : Scope) : Prop where
  depth : scope'.callDepth = scope.callDepth
  limit : scope'.callLimit = scope.callLimit
  held : ∀ c ∉ V.absorbed, scope'.held c = scope.held c
  around : ∀ c ∈ around, scope.held c = true ∧ scope'.held c = true

namespace Scope.LooksLike

variable {V : View} {around : List ContextId} {scope scope' : Scope}
  (alike : scope.LooksLike V around scope')

/-- A scope looks like itself if it holds the given contexts. -/
theorem refl (here : ∀ c ∈ around, scope.held c = true)
    : scope.LooksLike V around scope :=
  ⟨rfl, rfl, fun _ _ => rfl, fun c member => ⟨here c member, here c member⟩⟩

include alike

/-- Scopes look alike in a context if they do outside of it. -/
theorem entering (c : ContextId)
    : (scope.entering c).LooksLike V around (scope'.entering c) := by
  refine ⟨alike.depth, alike.limit, fun d free => ?_, fun d member => ?_⟩
  · unfold Scope.entering
    dsimp only
    rw [alike.held d free]
  · have both := alike.around d member
    exact ⟨(held_entering ..).mpr (.inr both.1), (held_entering ..).mpr (.inr both.2)⟩

/-- They do with values at hand that refer to the same contexts, but for those that are absorbed. -/
theorem holding {values values' : List Value}
    (same : SameBut V.absorbed (contextsOfAll values) (contextsOfAll values'))
    : (scope.holding values).LooksLike V around (scope'.holding values') := by
  refine ⟨alike.depth, alike.limit, fun d free => ?_, fun d member => ?_⟩
  · have here : (contextsOfAll values').contains d = (contextsOfAll values).contains d :=
      Bool.eq_iff_iff.mpr (by simpa using (same d free).symm)
    unfold Scope.holding
    dsimp only
    rw [alike.held d free, here]
  · have both := alike.around d member
    exact ⟨(held_holding ..).mpr (.inr both.1), (held_holding ..).mpr (.inr both.2)⟩

/-- In a store that fits, they hold the same contexts, and the absorbed ones among them. -/
theorem isHeld_same {st : Store} (kept : V.absorbed ⊆ around ++ st.kept)
    : st.isHeld scope'.held = st.isHeld scope.held
      ∧ ∀ c ∈ V.absorbed, st.isHeld scope.held c = true := by
  have either (c : ContextId) (member : c ∈ V.absorbed)
      : st.isHeld scope.held c = true ∧ st.isHeld scope'.held c = true := by
    unfold Store.isHeld
    rcases List.mem_append.mp (kept member) with near | far
    · simp [(alike.around c near).1, (alike.around c near).2]
    · simp [far]
  refine ⟨funext fun c => ?_, fun c member => (either c member).1⟩
  by_cases member : c ∈ V.absorbed
  · rw [(either c member).1, (either c member).2]
  · unfold Store.isHeld
    rw [alike.held c member]

end Scope.LooksLike

/-- A view that fits one store fits any that is seen alike. -/
theorem View.Fits.other {V : View} {around : List ContextId} {st st' : Store}
    (fits : V.Fits around st) (stores : st.seen V = st'.seen V)
    : V.Fits around st' :=
  ⟨Store.host_same stores ▸ fits.host, Store.kept_same stores ▸ fits.kept⟩

namespace Run

variable {V : View} {α β γ δ : Type} {f : α → γ} {g : β → δ} {x y z : Run α}

/-- (SameEnd V around f o o') says that two outcomes look alike, where f is what is seen of a
result, and that the stores still fit the view.
-/
inductive SameEnd (V : View) (around : List ContextId) (f : α → γ)
    : Except Halt α × Store → Except Halt α × Store → Prop where
  | ok {a a' : α} {st st' : Store} (same : f a = f a') (stores : st.seen V = st'.seen V)
      (fits : V.Fits around st)
      : SameEnd V around f (.ok a, st) (.ok a', st')
  | error {e e' : EvalError} {st st' : Store} (same : e.seen V = e'.seen V)
      (stores : st.seen V = st'.seen V) (fits : V.Fits around st)
      : SameEnd V around f (.error (.error e), st) (.error (.error e'), st')
  | outOfFuel {st st' : Store} (stores : st.seen V = st'.seen V)
      : SameEnd V around f (.error .outOfFuel, st) (.error .outOfFuel, st')

/-- Outcomes that look alike do so after the same slot is left. -/
theorem SameEnd.leave {around : List ContextId} {o o' : Except Halt α × Store}
    (same : SameEnd V around f o o') (id : SlotId)
    : SameEnd V around f (o.1, o.2.leave id) (o'.1, o'.2.leave id) := by
  cases same with
  | ok results stores fits =>
      exact .ok results (Store.leave_same stores id) ⟨fits.host, fits.kept⟩
  | error errors stores fits =>
      exact .error errors (Store.leave_same stores id) ⟨fits.host, fits.kept⟩
  | outOfFuel stores => exact .outOfFuel (Store.leave_same stores id)

/-- (Agree V f x y) says that the runs come to ends that look alike from all stores that do,
whatever other computations they are part of.
-/
structure Agree (V : View) (f : α → γ) (x y : Run α) : Prop where
  ends
    : ∀ {scope scope' : Scope} {around : List ContextId} {st st' : Store},
        scope.LooksLike V around scope' → st.seen V = st'.seen V → V.Fits around st
        → SameEnd V around f (x.outcome scope st) (y.outcome scope' st')

namespace Agree

-----------------------------------------------------------------------------------------
-- Sequences
-----------------------------------------------------------------------------------------

/-- Returned values agree if they are seen alike. -/
theorem pure {a a' : α} (same : f a = f a')
    : Agree V f (pure a) (pure a') :=
  ⟨fun _ stores fits => .ok same stores fits⟩

/-- Failures agree if their errors are seen alike. -/
theorem fail {e e' : EvalError} (same : e.seen V = e'.seen V)
    : Agree V f (fail e) (fail e') :=
  ⟨fun _ stores fits => .error same stores fits⟩

/-- Runs that are out of fuel agree. -/
theorem exhausted
    : Agree V f exhausted exhausted :=
  ⟨fun _ stores _ => .outOfFuel stores⟩

/-- Sequences agree if their parts do. -/
theorem bind {h h' : α → Run β} (first : Agree V f x y)
    (rest : ∀ {a a' : α}, f a = f a' → Agree V g (h a) (h' a'))
    : Agree V g (x >>= h) (y >>= h') := by
  constructor
  intro scope scope' around st st' scopes stores fits
  have ends := first.ends scopes stores fits
  rw [outcome_bind, outcome_bind]
  generalize x.outcome scope st = o, y.outcome scope' st' = o' at ends ⊢
  cases ends with
  | ok same stores fits => exact (rest same).ends scopes stores fits
  | error same stores fits => exact .error same stores fits
  | outOfFuel stores => exact .outOfFuel stores

/-- Sequences whose first parts have the same results. -/
theorem bindEq {x y : Run γ} {h h' : γ → Run β} (first : Agree V id x y)
    (rest : ∀ a, Agree V g (h a) (h' a))
    : Agree V g (x >>= h) (y >>= h') :=
  first.bind fun {a a'} same => by
    obtain rfl : a = a' := same
    exact rest a

/-- Runs that go on from attempts. -/
theorem attempt {h h' : Except EvalError α → Run β} (first : Agree V f x y)
    (onResult : ∀ {a a' : α}, f a = f a' → Agree V g (h (.ok a)) (h' (.ok a')))
    (onError
      : ∀ {e e' : EvalError}, e.seen V = e'.seen V → Agree V g (h (.error e)) (h' (.error e')))
    : Agree V g (attempt x >>= h) (attempt y >>= h') := by
  constructor
  intro scope scope' around st st' scopes stores fits
  have ends := first.ends scopes stores fits
  rw [outcome_bind, outcome_bind, outcome_attempt, outcome_attempt]
  generalize x.outcome scope st = o, y.outcome scope' st' = o' at ends ⊢
  cases ends with
  | ok same stores fits => exact (onResult same).ends scopes stores fits
  | error same stores fits => exact (onError same).ends scopes stores fits
  | outOfFuel stores => exact .outOfFuel stores

/-- Sequences of runs agree if the runs do, one by one. Witness: induction on the items. -/
theorem mapM {ε : Type} {h h' : ε → Run α} {items items' : List ε}
    (each : List.Forall₂ (fun a a' => Agree V f (h a) (h' a')) items items')
    : Agree V (List.map f) (items.mapM h) (items'.mapM h') := by
  induction each with
  | nil => exact .pure rfl
  | cons first _ ih =>
      rw [List.mapM_cons, List.mapM_cons]
      exact first.bind fun same => ih.bind fun others => .pure (by simp [same, others])

/-- The results of functions agree if they are seen alike. -/
theorem ofExcept {f : α → α} {r r' : Except EvalError α} (same : seenEnd V f r = seenEnd V f r')
    : Agree V f (ofExcept r) (ofExcept r') := by
  cases r <;> cases r' <;> simp at same
  · exact .fail same
  · exact .pure same

-----------------------------------------------------------------------------------------
-- Stores
-----------------------------------------------------------------------------------------

/-- Runs that read the store. -/
theorem get {h h' : Store → Run β}
    (rest
      : ∀ {st st' : Store}, st.seen V = st'.seen V → st.host.Respects V
        → Agree V g (h st) (h' st'))
    : Agree V g (get >>= h) (get >>= h') := by
  constructor
  intro scope scope' around st st' scopes stores fits
  rw [outcome_bind, outcome_bind]
  exact (rest stores fits.host).ends scopes stores fits

/-- Functions agree that keep stores seen alike and give values that are. -/
theorem modifyGet {h h' : Store → α × Store}
    (steps
      : ∀ {around : List ContextId} {st st' : Store}, st.seen V = st'.seen V → V.Fits around st
        → f (h st).1 = f (h' st').1
          ∧ (h st).2.seen V = (h' st').2.seen V ∧ V.Fits around (h st).2)
    : Agree V f (modifyGet h : Run α) (modifyGet h') := by
  constructor
  intro scope scope' around st st' scopes stores fits
  obtain ⟨same, stores, fits⟩ := steps stores fits
  rw [outcome_modifyGet, outcome_modifyGet]
  exact .ok same stores fits

/-- So do changes that keep stores seen alike. -/
theorem modify {h h' : Store → Store}
    (steps
      : ∀ {around : List ContextId} {st st' : Store}, st.seen V = st'.seen V → V.Fits around st
        → (h st).seen V = (h' st').seen V ∧ V.Fits around (h st))
    : Agree V id (modify h : Run Unit) (modify h') :=
  .modifyGet fun stores fits => ⟨rfl, steps stores fits⟩

/-- To ask for a context agrees. -/
theorem context (c : ContextId)
    : Agree V (Context.seen V) (context c) (context c) := by
  constructor
  intro scope scope' around st st' scopes stores fits
  rw [outcome_context, outcome_context]
  refine .ok ?_ stores fits
  rw [← st.context_seen, stores, st'.context_seen]

/-- So does taking a new number. -/
theorem newIdentity
    : Agree V id newIdentity newIdentity := by
  refine .modifyGet fun stores fits => ⟨Store.nextIdentity_same stores, ?_, fits.host, fits.kept⟩
  exact congrArg (fun st : Store => { st with nextIdentity := st.nextIdentity + 1 }) stores

/-- So does drawing an arrangement. -/
theorem newArrangement
    : Agree V id newArrangement newArrangement := by
  refine .modifyGet fun stores fits => ⟨Store.arrangement_same stores, ?_, fits.host, fits.kept⟩
  exact congrArg (fun st : Store => { st with tables := st.tables + 1 }) stores

/-- So does drawing one that may not be needed. -/
theorem arrangementIf (needed : Bool)
    : Agree V id (arrangementIf needed) (arrangementIf needed) := by
  unfold Run.arrangementIf
  split
  · exact newArrangement
  · exact .pure rfl

/-- So does writing a text. -/
theorem write (text : String)
    : Agree V id (write text) (write text) := by
  refine .modify fun stores fits => ⟨?_, fits.host, fits.kept⟩
  exact congrArg (fun st : Store => { st with output := st.output ++ text }) stores

/-- So does asking a host that respects the view. -/
theorem askHost {question question' : Host → Except EvalError Value × Host}
    (answers
      : ∀ host : Host, host.Respects V → Host.AnswersSame V (question host) (question' host))
    : Agree V (Value.seen V) (askHost question) (askHost question') := by
  constructor
  intro scope scope' around st st' scopes stores fits
  have asked := answers st.host fits.host
  rw [outcome_askHost, outcome_askHost, ← Store.host_same stores]
  have answer := asked.answer
  have after : ({ st with host := (question st.host).2 } : Store).seen V
      = ({ st' with host := (question' st.host).2 } : Store).seen V := by
    rw [← asked.host]
    exact congrArg (fun s : Store => { s with host := (question st.host).2 }) stores
  have later : V.Fits around { st with host := (question st.host).2 } :=
    ⟨asked.respects, fits.kept⟩
  generalize (question st.host).1 = r, (question' st.host).1 = r' at answer ⊢
  cases r <;> cases r' <;> simp at answer
  · exact .error answer after later
  · exact .ok answer after later

-----------------------------------------------------------------------------------------
-- Scopes
-----------------------------------------------------------------------------------------

/-- Runs agree in changed surroundings that look alike. -/
theorem withReader {k k' : Scope → Scope}
    (alike
      : ∀ {around : List ContextId} {scope scope' : Scope}, scope.LooksLike V around scope'
        → (k scope).LooksLike V around (k' scope'))
    (agree : Agree V f x y)
    : Agree V f (withReader k x) (withReader k' y) :=
  ⟨fun scopes stores fits => agree.ends (alike scopes) stores fits⟩

/-- So they do in a context. -/
theorem inContext (c : ContextId) (agree : Agree V f x y)
    : Agree V f (inContext c x) (inContext c y) :=
  .withReader (fun scopes => scopes.entering c) agree

/-- So they do with values at hand that refer to the same contexts, but for those that are absorbed.
-/
theorem holding {values values' : List Value}
    (same : SameBut V.absorbed (contextsOfAll values) (contextsOfAll values'))
    (agree : Agree V f x y)
    : Agree V f (holding values x) (holding values' y) :=
  .withReader (fun scopes => scopes.holding same) agree

/-- So they do with values at hand that are seen alike. -/
theorem holdingSeen {values values' : List Value}
    (same : values.map (Value.seen V) = values'.map (Value.seen V)) (agree : Agree V f x y)
    : Agree V f (Run.holding values x) (Run.holding values' y) :=
  .holding (contextsOfAll_same same) agree

/-- So they do with one value at hand. -/
theorem holdingOne {v v' : Value} (same : v.seen V = v'.seen V) (agree : Agree V f x y)
    : Agree V f (Run.holding [v] x) (Run.holding [v'] y) :=
  .holdingSeen (congrArg ([·]) same) agree

/-- So they do with the values of bindings at hand that are seen alike by some reader. -/
theorem holdingBindings {reads : Symbol → Bool} {b b' : Bindings}
    (same : Bindings.seen V reads b = Bindings.seen V reads b') (agree : Agree V f x y)
    : Agree V f (Run.holding b.values x) (Run.holding b'.values y) := by
  refine .holding ?_ agree
  rw [contextsOfAll_values, contextsOfAll_values]
  exact contextsOfBindings_same same

/-- So they do with nodes at hand that are seen alike. -/
theorem holdingNodes {ns ns' : List Node} (same : ns.map (Node.seen V) = ns'.map (Node.seen V))
    (agree : Agree V f x y)
    : Agree V f (Run.holding (ns.map .node) x) (Run.holding (ns'.map .node) y) := by
  refine .holdingSeen ?_ agree
  have values := congrArg (List.map Value.node) same
  simpa only [List.map_map, Function.comp_def, Value.seen] using values

/-- So they do with one node at hand. -/
theorem holdingNode {n n' : Node} (same : n.seen V = n'.seen V) (agree : Agree V f x y)
    : Agree V f (Run.holding [.node n] x) (Run.holding [.node n'] y) := by
  have only : [n].map (Node.seen V) = [n'].map (Node.seen V) := congrArg ([·]) same
  exact .holdingNodes only agree

/-- So they do with the expressions of pairs at hand. -/
theorem holdingPairs {ps ps' : List (Symbol × Node)}
    (same : ps.map (seenPair V) = ps'.map (seenPair V)) (agree : Agree V f x y)
    : Agree V f (Run.holding (ps.map (.node ·.2)) x) (Run.holding (ps'.map (.node ·.2)) y) := by
  refine .holdingSeen ?_ agree
  have values := congrArg (List.map fun pair => Value.node pair.2) same
  simpa only [List.map_map, Function.comp_def, Value.seen, seenPair] using values

/-- Gathered results agree if they do one by one, and are seen alike as values. Witness: induction
on the items.
-/
theorem gather {ε : Type} {h h' : ε → Run α} {value : α → Value} {items items' : List ε}
    (values : ∀ {a a' : α}, f a = f a' → (value a).seen V = (value a').seen V)
    (each : List.Forall₂ (fun a a' => Agree V f (h a) (h' a')) items items')
    : Agree V (List.map f) (gather value h items) (gather value h' items') := by
  induction each with
  | nil => exact .pure rfl
  | cons first _ ih =>
      unfold Run.gather
      refine first.bind fun same => ?_
      exact (ih.holdingOne (values same)).bind fun others => .pure (by simp [same, others])

/-- So they do inside calls. -/
theorem insideCall (agree : Agree V f x y)
    : Agree V f (insideCall x) (insideCall y) := by
  constructor
  intro scope scope' around st st' scopes stores fits
  rw [outcome_insideCall, outcome_insideCall, scopes.depth, scopes.limit]
  split
  · exact agree.ends ⟨rfl, rfl, scopes.held, scopes.around⟩ stores fits
  · exact .error rfl stores fits

/-- So they do inside slots that are seen alike. -/
theorem insideSlot {slot slot' : Slot} (slots : slot.seen V = slot'.seen V) (agree : Agree V f x y)
    : Agree V f (insideSlot slot x) (insideSlot slot' y) := by
  have id := Slot.id_same slots
  have symbol : slot.symbol = slot'.symbol := congrArg SlotId.symbol id
  constructor
  intro scope scope' around st st' scopes stores fits
  rw [outcome_insideSlot, outcome_insideSlot, id, symbol, Store.forcing_same stores]
  split
  · exact .error rfl stores fits
  · exact (agree.ends scopes (Store.enter_same stores slot'.id) ⟨fits.host, fits.kept⟩).leave _

/-- To ask whether a context lives agrees, since the same contexts are collected. -/
theorem isLiving (c : ContextId)
    : Agree V id (isLiving c) (isLiving c) := by
  constructor
  intro scope scope' around st st' scopes stores fits
  have first := scopes.isHeld_same fits.kept
  have second := scopes.isHeld_same (fits.other stores).kept
  have asked : st'.isHeld scope'.held = st.isHeld scope.held := by
    rw [second.1]
    unfold Store.isHeld
    rw [Store.kept_same stores]
  have left := st.collected_seen first.2
  have right := st'.collected_seen second.2
  have collected : (st.collected scope.held).seen V = (st'.collected scope'.held).seen V := by
    rw [← left, stores, right, st'.collected_congr second.1]
  have living := Store.living_same collected
  unfold Run.isLiving
  simp only [outcome_bind, outcome_read, outcome_get, asked]
  split
  · exact .ok rfl stores fits
  · simp only [outcome_bind, outcome_modify, outcome_get]
    exact .ok (congrArg (List.contains · c) living) collected ⟨fits.host, fits.kept⟩

end Agree

end Run

end IncrementalLisp
