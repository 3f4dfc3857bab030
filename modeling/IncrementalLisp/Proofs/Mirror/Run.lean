import IncrementalLisp.Machine.Run
import IncrementalLisp.Proofs.Machine.Steady
import IncrementalLisp.Proofs.Mirror.Store
import Mathlib.Order.Filter.AtTopBot.Basic

/-! Runs that are mirrored by others. Whatever a run comes to, other than the end of its fuel, the
runs of all machines of some levels come to alike, from stores that differ only by a pass. Under
wider bounds more runs succeed, so a pass that widens them mirrors successes only; there the
namespaces of contexts must be constant, for otherwise a failure to compute one could go unnoticed.
-/

namespace IncrementalLisp

open Filter

/-- Likeness of the ends of runs without a result. A run out of fuel is like none. -/
def Halt.Alike (M : Likeness) : Halt → Halt → Prop
  | .error e, h => ∃ e', h = .error e' ∧ e.Alike M e'
  | .outOfFuel, _ => False

/-- Scopes that differ only in the bound on nested calls, as far as the pass allows, and in whether
contexts are held that are kept anyway.
-/
structure Scope.Alike (P : Pass) (scope scope' : Scope) : Prop where
  depth : scope'.callDepth = scope.callDepth
  limit : P.Bounds scope.callLimit scope'.callLimit
  held : ∀ c ∉ P.kept, scope.held c = scope'.held c

namespace Scope.Alike

variable {P : Pass} {scope scope' : Scope}

/-- A scope is like itself. -/
theorem refl (scope : Scope)
    : scope.Alike P scope :=
  ⟨rfl, .inl rfl, fun _ _ => rfl⟩

/-- Scopes stay alike when both enter a context. -/
theorem entering (alike : scope.Alike P scope') (c : ContextId)
    : (scope.entering c).Alike P (scope'.entering c) where
  depth := alike.depth
  limit := alike.limit
  held d free := congrArg (c == d || ·) (alike.held d free)

/-- They stay alike when values are at hand that refer to the same contexts, but for kept ones. -/
theorem holding (alike : scope.Alike P scope') {values values' : List Value}
    (same : SameBut P.kept (contextsOfAll values) (contextsOfAll values'))
    : (scope.holding values).Alike P (scope'.holding values') where
  depth := alike.depth
  limit := alike.limit
  held c free := by
    rw [Bool.eq_iff_iff, held_holding, held_holding, same c free, alike.held c free]

end Scope.Alike

/-- (P.Counts o) says that an outcome has to be mirrored: it is not the end of the fuel, and if the
pass widens the bounds, it is a result in a store with constant namespaces.
-/
structure Pass.Counts (P : Pass) {α : Type} (o : Except Halt α × Store) : Prop where
  ended : o.1 ≠ .error .outOfFuel
  succeeded : P.widens → (∃ a, o.1 = .ok a) ∧ o.2.SpacesConstant

namespace Pass.Counts

variable {P : Pass} {α β : Type} {o : Except Halt α × Store}

/-- A part of a run that ends with a result counts if the whole run does. -/
theorem part {o' : Except Halt β × Store} (counts : P.Counts o') {a : α} {st : Store}
    (grows : st.Grows o'.2)
    : P.Counts ((.ok a, st) : Except Halt α × Store) :=
  ⟨Run.ok_ne_outOfFuel,
    fun widens => ⟨⟨a, rfl⟩, grows.spacesConstant (counts.succeeded widens).2⟩⟩

/-- An error counts only if the pass does not widen the bounds. -/
theorem error {h : Halt} {st : Store} (counts : P.Counts ((.error h, st) : Except Halt α × Store))
    : P.Counts ((.error h, st) : Except Halt β × Store) := by
  refine ⟨fun exhausted => counts.ended (congrArg _ (Except.error.inj exhausted)), fun widens => ?_⟩
  obtain ⟨⟨_, never⟩, _⟩ := counts.succeeded widens
  cases never

end Pass.Counts

namespace Run

variable {α β γ δ : Type} {F : Filter Nat} {P : Pass} {Q : α → β → Prop} {R : γ → δ → Prop}

/-- (OutcomesAlike P Q o o') says that both outcomes are errors, which are alike, or results, which
are related, in alike stores.
-/
def OutcomesAlike (P : Pass) (Q : α → β → Prop) (o : Except Halt α × Store)
    (o' : Except Halt β × Store)
    : Prop :=
  ResultsAlike (Halt.Alike P) Q o.1 o'.1 ∧ o.2.Alike P o'.2

/-- (Mirrored F P Q x y) says that wherever the run comes to an end that counts, the runs y of
almost all levels of the filter come to the same end from alike stores, and one like it.
-/
structure Mirrored (F : Filter Nat) (P : Pass) (Q : α → β → Prop) (x : Run α) (y : Nat → Run β)
    : Prop where
  ends
    : ∀ {scope scope' : Scope} {st st' : Store}, scope.Alike P scope' → st.Alike P st'
        → P.Counts (x.outcome scope st)
        → ∃ o, OutcomesAlike P Q (x.outcome scope st) o
            ∧ ∀ᶠ k in F, (y k).outcome scope' st' = o

namespace Mirrored

variable {x : Run α} {y : Nat → Run β}

-----------------------------------------------------------------------------------------
-- Sequences
-----------------------------------------------------------------------------------------

/-- A run of one step. -/
theorem step {z : Run β}
    (steps
      : ∀ {scope scope' : Scope} {st st' : Store}, scope.Alike P scope' → st.Alike P st'
        → P.Counts (x.outcome scope st)
        → OutcomesAlike P Q (x.outcome scope st) (z.outcome scope' st'))
    : Mirrored F P Q x fun _ => z :=
  ⟨fun scopes stores counts => ⟨_, steps scopes stores counts, .of_forall fun _ => rfl⟩⟩

/-- Returned values mirror each other if they are related. -/
theorem pure {a : α} {b : β} (related : Q a b)
    : Mirrored F P Q (pure a) fun _ => pure b :=
  .step fun _ stores _ => ⟨.ok related, stores⟩

/-- Failures mirror each other if the errors are alike. -/
theorem fail {e e' : EvalError} (alike : e.Alike P e')
    : Mirrored F P Q (fail e) fun _ => fail e' :=
  .step fun _ stores _ => ⟨.error ⟨e', rfl, alike⟩, stores⟩

/-- A run that is out of fuel is mirrored by any other one, since it comes to nothing. -/
theorem exhausted
    : Mirrored F P Q exhausted y :=
  ⟨fun _ _ counts => absurd rfl counts.ended⟩

/-- Under wider bounds a run that always fails need not be mirrored. -/
theorem of_widens (widens : P.widens) (fails : ∀ scope st a, (x.outcome scope st).1 ≠ .ok a)
    : Mirrored F P Q x y := by
  refine ⟨fun {scope _ st _} _ _ counts => ?_⟩
  obtain ⟨⟨a, never⟩, _⟩ := counts.succeeded widens
  exact absurd never (fails scope st a)

/-- Runs mirror each other for any weaker relation of their results. -/
theorem imp {T : α → β → Prop} (mirrored : Mirrored F P Q x y) (weaker : ∀ {a b}, Q a b → T a b)
    : Mirrored F P T x y := by
  constructor
  intro scope scope' st st' scopes alike counts
  obtain ⟨o, ⟨results, stores⟩, same⟩ := mirrored.ends scopes alike counts
  exact ⟨o, ⟨results.imp fun _ => weaker, stores⟩, same⟩

/-- A sequence is mirrored if its parts are. Contexts are only added by its second part, so that
the first counts if the sequence does.
-/
theorem andThen {f : α → Run γ} {g : Nat → β → Run δ} (first : Mirrored F P Q x y)
    (grows : ∀ a, Follows Store.Grows (f a))
    (rest : ∀ {a b}, Q a b → Mirrored F P R (f a) fun k => g k b)
    : Mirrored F P R (x >>= f) fun k => y k >>= g k := by
  constructor
  intro scope scope' st st' scopes alike counts
  rw [outcome_bind] at counts ⊢
  have ends : P.Counts (x.outcome scope st) → _ := first.ends scopes alike
  generalize x.outcome scope st = o at ends counts ⊢
  obtain ⟨result, middle⟩ := o
  cases result with
  | error h =>
      obtain ⟨⟨result', middle'⟩, ⟨results, stores⟩, same⟩ := ends counts.error
      dsimp only at results
      cases results with
      | @error _ h' failed =>
          refine ⟨(.error h', middle'), ⟨.error failed, stores⟩, same.mono fun k came => ?_⟩
          rw [outcome_bind, came]
  | ok a =>
      obtain ⟨⟨result', middle'⟩, ⟨results, stores⟩, same⟩ :=
        ends (counts.part ((grows a).follows scope middle))
      dsimp only at results
      cases results with
      | ok related =>
          obtain ⟨o, outcomes, last⟩ := (rest related).ends scopes stores counts
          refine ⟨o, outcomes, (same.and last).mono fun k both => ?_⟩
          rw [outcome_bind, both.1]
          exact both.2

/-- The same for a second part that does not analyse the result of the first. -/
theorem bind {f : α → Run γ} {g : Nat → β → Run δ} [∀ a, Follows Store.Grows (f a)]
    (first : Mirrored F P Q x y) (rest : ∀ {a b}, Q a b → Mirrored F P R (f a) fun k => g k b)
    : Mirrored F P R (x >>= f) fun k => y k >>= g k :=
  first.andThen inferInstance rest

/-- One level more. -/
theorem succ (mirrored : Mirrored F P Q x fun k => y (k + 1))
    : Mirrored (F.map (· + 1)) P Q x y := by
  constructor
  intro scope scope' st st' scopes alike counts
  obtain ⟨o, outcomes, same⟩ := mirrored.ends scopes alike counts
  exact ⟨o, outcomes, eventually_map.mpr same⟩

/-- What a run whose result is known comes to, the run of that result comes to. -/
theorem known {z : Nat → Run β} (mirrored : Mirrored F P Q x z) (same : ∀ᶠ k in F, y k = z k)
    : Mirrored F P Q x y := by
  constructor
  intro scope scope' st st' scopes alike counts
  obtain ⟨o, outcomes, came⟩ := mirrored.ends scopes alike counts
  refine ⟨o, outcomes, (same.and came).mono fun k both => ?_⟩
  rw [both.1]
  exact both.2

/-- A run before one like it need not be repeated, if its result is known. -/
theorem before [F.NeBot] {b : β} {f : α → Run γ} {z : Nat → Run δ}
    (first : Mirrored F P Q x fun _ => Pure.pure b) (grows : ∀ a, Follows Store.Grows (f a))
    (rest : ∀ {a}, Q a b → Mirrored F P R (f a) z)
    : Mirrored F P R (x >>= f) z := by
  have exactly : Mirrored F P (fun a b' => b' = b ∧ Q a b) x fun _ => Pure.pure b := by
    constructor
    intro scope scope' st st' scopes alike counts
    obtain ⟨o, outcomes, same⟩ := first.ends scopes alike counts
    obtain rfl := same.exists.choose_spec
    refine ⟨_, ⟨?_, outcomes.2⟩, same⟩
    obtain ⟨results, _⟩ := outcomes
    generalize (x.outcome scope st).1 = result at results ⊢
    cases results with
    | ok related => exact .ok ⟨rfl, related⟩
  have whole : Mirrored F P R (x >>= f) fun k => Pure.pure b >>= fun _ => z k :=
    exactly.andThen grows fun both => rest both.2
  refine whole.known ?_
  exact .of_forall fun k => (LawfulMonad.pure_bind b fun _ => z k).symm

/-- A run after one like it need not have been begun, if its result is known. -/
theorem after {a : α} {z : Run γ} [Follows Store.Grows z] {g : Nat → β → Run δ}
    (first : Mirrored F P Q (Pure.pure a) y)
    (rest : ∀ {b}, Q a b → Mirrored F P R z fun k => g k b)
    : Mirrored F P R z fun k => y k >>= g k := by
  have exactly : Mirrored F P (fun _ b => Q a b) (Pure.pure a) y := by
    constructor
    intro scope scope' st st' scopes alike counts
    obtain ⟨o, ⟨results, stores⟩, same⟩ := first.ends scopes alike counts
    refine ⟨o, ⟨?_, stores⟩, same⟩
    obtain ⟨result, later⟩ := o
    dsimp only [outcome_pure] at results ⊢
    cases results with
    | ok related => exact .ok related
  have whole := exactly.bind (f := fun _ => z) fun {_ b} related => rest related
  rwa [LawfulMonad.pure_bind] at whole

/-- A run that goes on from an attempt, in any case. Under wider bounds an error of the attempted
run must not go unnoticed.
-/
theorem attempt {f : Except EvalError α → Run γ} {g : Nat → Except EvalError β → Run δ}
    (mirrored : Mirrored F P Q x y) (grows : ∀ r, Follows Store.Grows (f r))
    (rest
      : ∀ {r r'}, ResultsAlike (EvalError.Alike P) Q r r' → Mirrored F P R (f r) fun k => g k r')
    (noticed
      : P.widens → ∀ scope st e after a, x.outcome scope st = (.error (.error e), after)
        → ((f (.error e)).outcome scope after).1 ≠ .ok a)
    : Mirrored F P R (attempt x >>= f) fun k => attempt (y k) >>= g k := by
  constructor
  intro scope scope' st st' scopes alike counts
  rw [outcome_bind, outcome_attempt] at counts ⊢
  have ends : P.Counts (x.outcome scope st) → _ := mirrored.ends scopes alike
  have noticed (widens : P.widens) := noticed widens scope st
  generalize x.outcome scope st = o at ends noticed counts ⊢
  obtain ⟨result, middle⟩ := o
  cases result with
  | ok a =>
      obtain ⟨⟨result', middle'⟩, ⟨results, stores⟩, same⟩ :=
        ends (counts.part ((grows (.ok a)).follows scope middle))
      dsimp only at results
      cases results with
      | @ok _ b related =>
          obtain ⟨o, outcomes, last⟩ := (rest (.ok related)).ends scopes stores counts
          refine ⟨o, outcomes, (same.and last).mono fun k both => ?_⟩
          rw [outcome_bind, outcome_attempt, both.1]
          exact both.2
  | error h =>
      cases h with
      | outOfFuel => exact absurd rfl counts.ended
      | error e =>
          have strict : ¬P.widens := by
            intro widens
            obtain ⟨⟨a, never⟩, _⟩ := counts.succeeded widens
            exact noticed widens e middle a rfl never
          obtain ⟨⟨result', middle'⟩, ⟨results, stores⟩, same⟩ :=
            ends ⟨by simp, fun widens => absurd widens strict⟩
          dsimp only at results
          cases results with
          | error failed =>
              obtain ⟨e', rfl, errors⟩ := failed
              obtain ⟨o, outcomes, last⟩ := (rest (.error errors)).ends scopes stores counts
              refine ⟨o, outcomes, (same.and last).mono fun k both => ?_⟩
              rw [outcome_bind, outcome_attempt, both.1]
              exact both.2

/-- The results of functions mirror each other if they are alike. -/
theorem ofExcept {result : Except EvalError α} {result' : Except EvalError β}
    (alike : ResultsAlike (EvalError.Alike P) Q result result')
    : Mirrored F P Q (ofExcept result) fun _ => ofExcept result' := by
  cases alike with
  | error failed => exact .fail failed
  | ok related => exact .pure related

-----------------------------------------------------------------------------------------
-- Stores
-----------------------------------------------------------------------------------------

/-- Both sides read stores that are alike. -/
theorem get
    : Mirrored F P (Store.Alike P) (get : Run Store) fun _ => get :=
  .step fun _ alike _ => ⟨.ok alike, alike⟩

/-- Functions that keep stores alike and give related values mirror each other. -/
theorem modifyGet {f : Store → α × Store} {g : Store → β × Store}
    (steps : ∀ {st st' : Store}, st.Alike P st' → Q (f st).1 (g st').1 ∧ (f st).2.Alike P (g st').2)
    : Mirrored F P Q (modifyGet f : Run α) fun _ => modifyGet g :=
  .step fun _ alike _ => ⟨.ok (steps alike).1, (steps alike).2⟩

/-- So do changes that keep stores alike. -/
theorem modify {f g : Store → Store}
    (steps : ∀ {st st' : Store}, st.Alike P st' → (f st).Alike P (g st'))
    : Mirrored F P (fun _ _ => True) (modify f : Run Unit) fun _ => modify g :=
  .step fun _ alike _ => ⟨.ok trivial, steps alike⟩

/-- Under wider bounds the namespace of the context is constant. -/
theorem context (c : ContextId)
    : Mirrored F P
        (fun here there => here.Alike P there ∧ (P.widens →
          ∀ slot, here.slots[Symbol.currentSpace]? = some slot → slot.node.isConstant))
        (context c) fun _ => context c :=
  .step fun _ alike counts =>
    ⟨.ok ⟨alike.context c, fun widens _ stored => (counts.succeeded widens).2 stored⟩, alike⟩

/-- Both sides take the same new number. -/
theorem newIdentity
    : Mirrored F P (fun i j => j = i) newIdentity fun _ => newIdentity :=
  .modifyGet fun alike => ⟨alike.identity, { alike with identity := by rw [alike.identity] }⟩

/-- Both sides draw the same arrangement. -/
theorem newArrangement
    : Mirrored F P (fun a b => b = a) newArrangement fun _ => newArrangement :=
  .modifyGet fun alike =>
    ⟨alike.next_eq, { alike with tables := fun none => congrArg (· + 1) (alike.tables none) }⟩

/-- So they do where one may not be needed. -/
theorem arrangementIf (needed : Bool)
    : Mirrored F P (fun a b => b = a) (arrangementIf needed) fun _ => arrangementIf needed := by
  unfold Run.arrangementIf
  split
  · exact .newArrangement
  · exact .pure rfl

/-- Both sides write the same text. -/
theorem write {text text' : String} (same : text' = text)
    : Mirrored F P (fun _ _ => True) (write text) fun _ => write text' :=
  .modify fun alike => { alike with output := by rw [alike.output, same] }

/-- Blind hosts answer alike for questions that are alike. -/
theorem askHost {question question' : Host → Except EvalError Value × Host}
    (answers : ∀ host : Host, host.Blind → Host.AnswersAlike P (question host) (question' host))
    : Mirrored F P (Value.Alike P) (askHost question) fun _ => askHost question' := by
  refine .step fun {_ _ st st'} _ alike _ => ?_
  obtain ⟨answered, hosts, blind⟩ := answers st.host alike.blind
  rw [outcome_askHost, outcome_askHost, alike.host]
  refine ⟨?_, { alike with host := hosts, blind := blind }⟩
  generalize (question st.host).1 = answer, (question' st.host).1 = answer' at answered ⊢
  cases answered with
  | error failed => exact .error ⟨_, rfl, failed⟩
  | ok same => exact .ok same

-----------------------------------------------------------------------------------------
-- Surroundings
-----------------------------------------------------------------------------------------

/-- Runs mirror each other in changed surroundings that stay alike. -/
theorem withReader {f f' : Scope → Scope}
    (scopes : ∀ {scope scope' : Scope}, scope.Alike P scope' → (f scope).Alike P (f' scope'))
    (mirrored : Mirrored F P Q x y)
    : Mirrored F P Q (withReader f x : Run α) fun k => withReader f' (y k) :=
  ⟨fun alike stores counts => mirrored.ends (scopes alike) stores counts⟩

/-- So they do in a context, which both sides enter. -/
theorem inContext (c : ContextId) (mirrored : Mirrored F P Q x y)
    : Mirrored F P Q (inContext c x) fun k => inContext c (y k) :=
  mirrored.withReader fun alike => alike.entering c

/-- So they do while values are at hand that refer to the same contexts, but for those that the pass
keeps.
-/
theorem holding {values values' : List Value}
    (same : SameBut P.kept (contextsOfAll values) (contextsOfAll values'))
    (mirrored : Mirrored F P Q x y)
    : Mirrored F P Q (holding values x) fun k => holding values' (y k) :=
  mirrored.withReader fun alike => alike.holding same

/-- So they do while values are that are alike. -/
theorem holdingAlike {values values' : List Value} (alike : ValuesAlike P values values')
    (mirrored : Mirrored F P Q x y)
    : Mirrored F P Q (Run.holding values x) fun k => Run.holding values' (y k) :=
  mirrored.holding (alike.contexts_same P.holds)

/-- So they do while one value is. -/
theorem holdingOne {v w : Value} (alike : v.Alike P w) (mirrored : Mirrored F P Q x y)
    : Mirrored F P Q (Run.holding [v] x) fun k => Run.holding [w] (y k) :=
  mirrored.holdingAlike (valuesAlike_iff_forall₂.mpr (.cons alike .nil))

/-- So they do while nodes are that are alike. -/
theorem holdingNodes {ns ns' : List Node} (alike : NodesAlike P ns ns')
    (mirrored : Mirrored F P Q x y)
    : Mirrored F P Q (Run.holding (ns.map .node) x) fun k => Run.holding (ns'.map .node) (y k) := by
  refine mirrored.holding ?_
  rw [contextsOfAll_map_node, contextsOfAll_map_node]
  exact alike.contexts_same P.holds

/-- So they do while one node is. -/
theorem holdingNode {n n' : Node} (alike : n.Alike P n') (mirrored : Mirrored F P Q x y)
    : Mirrored F P Q (Run.holding [.node n] x) fun k => Run.holding [.node n'] (y k) :=
  mirrored.holdingOne ⟨_, rfl, alike⟩

/-- So they do while the nodes of pairs are that are alike. -/
theorem holdingPairs {ps ps' : List (Symbol × Node)} (alike : PairsAlike P ps ps')
    (mirrored : Mirrored F P Q x y)
    : Mirrored F P Q (Run.holding (ps.map (.node ·.2)) x)
        fun k => Run.holding (ps'.map (.node ·.2)) (y k) := by
  refine mirrored.holding ?_
  rw [contextsOfAll_map_expr, contextsOfAll_map_expr]
  exact alike.contexts_same P.holds

/-- So they do while the values of bindings are that are alike. -/
theorem holdingBindings {b b' : Bindings} (alike : BindingsAlike P b b')
    (mirrored : Mirrored F P Q x y)
    : Mirrored F P Q (Run.holding b.values x) fun k => Run.holding b'.values (y k) := by
  refine mirrored.holding ?_
  rw [contextsOfAll_values, contextsOfAll_values]
  exact alike.contexts_same P.holds

/-- So they do while related programs and the values of alike bindings are. -/
theorem holdingProgram {n n' : Node} {b b' : Bindings} (related : P.Related n n')
    (alike : BindingsAlike P b b') (mirrored : Mirrored F P Q x y)
    : Mirrored F P Q (Run.holding (.node n :: b.values) x)
        fun k => Run.holding (.node n' :: b'.values) (y k) := by
  refine mirrored.holding (related.contexts_same.append ?_)
  rw [contextsOfAll_values, contextsOfAll_values]
  exact alike.contexts_same P.holds

/-- Several runs, one after the other, mirror each other if the runs do, one by one, with results
that are alike as values. Witness: induction on the items.
-/
theorem gather {items : List α} {items' : List β} {value : γ → Value} {value' : δ → Value}
    {f : α → Run γ} {g : Nat → β → Run δ} [∀ a, Follows Store.Grows (f a)]
    (same : ∀ {x y}, R x y → (value x).Alike P (value' y))
    (each : List.Forall₂ (fun a b => Mirrored F P R (f a) fun k => g k b) items items')
    : Mirrored F P (List.Forall₂ R) (gather value f items)
        fun k => gather value' (g k) items' := by
  induction each with
  | nil => exact .pure .nil
  | cons first _ ih =>
      unfold Run.gather
      exact first.bind fun one => (ih.holdingOne (same one)).bind fun others =>
        .pure (.cons one others)

/-- A call that is not too deep under one bound is not too deep under a wider one. -/
theorem insideCall (mirrored : Mirrored F P Q x y)
    : Mirrored F P Q (insideCall x) fun k => insideCall (y k) := by
  constructor
  intro scope scope' st st' scopes alike counts
  simp only [outcome_insideCall, scopes.depth] at counts ⊢
  by_cases room : scope.callDepth < scope.callLimit
  · rw [if_pos room] at counts ⊢
    simp only [if_pos (Nat.lt_of_lt_of_le room scopes.limit.le)]
    exact mirrored.ends ⟨rfl, scopes.limit, scopes.held⟩ alike counts
  · rw [if_neg room] at counts ⊢
    rcases scopes.limit with limit | ⟨widens, _⟩
    · simp only [limit, if_neg room]
      exact ⟨_, ⟨.error ⟨_, rfl, rfl⟩, alike⟩, .of_forall fun _ => rfl⟩
    · obtain ⟨⟨_, never⟩, _⟩ := counts.succeeded widens
      cases never

/-- Runs mirror each other inside slots that are alike, which are both being computed or not. -/
theorem insideSlot {slot other : Slot} (slots : slot.Alike P other) (mirrored : Mirrored F P Q x y)
    : Mirrored F P Q (insideSlot slot x) fun k => insideSlot other (y k) := by
  constructor
  intro scope scope' st st' scopes alike counts
  simp only [outcome_insideSlot, slots.id_eq, slots.symbol, alike.forcing] at counts ⊢
  split at counts
  · rename_i circular
    simp only [if_pos circular]
    exact ⟨_, ⟨.error ⟨_, rfl, rfl⟩, alike⟩, .of_forall fun _ => rfl⟩
  · rename_i free
    simp only [if_neg free]
    obtain ⟨o, ⟨results, stores⟩, same⟩ := mirrored.ends scopes (alike.enter slot.id)
      ⟨counts.ended, counts.succeeded⟩
    exact ⟨(o.1, o.2.leave slot.id), ⟨results, stores.leave slot.id⟩, same.mono fun k came => by
      rw [came]⟩

/-- Both sides find a context living or both do not, since what is collected is the same. -/
theorem isLiving (c : ContextId)
    : Mirrored F P (fun here there => there = here) (isLiving c) fun _ => isLiving c := by
  refine .step fun {scope scope' st st'} scopes alike _ => ?_
  have later := alike.collected scopes.held
  simp only [Run.isLiving, outcome_bind, outcome_read, outcome_get, alike.isHeld_same scopes.held]
  split
  · exact ⟨.ok rfl, alike⟩
  · exact ⟨.ok (by rw [later.living]), later⟩

end Mirrored

end Run

end IncrementalLisp
