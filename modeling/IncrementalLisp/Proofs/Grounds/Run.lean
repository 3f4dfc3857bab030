import IncrementalLisp.Machine.Tower
import IncrementalLisp.Proofs.Machine.Run
import IncrementalLisp.Proofs.Node.References
import IncrementalLisp.Proofs.Store.Grounded

/-! Computations that leave no dangling references. From a grounded store they lead to one with at
least as many contexts, and their results refer only to contexts that are there then.
-/

namespace IncrementalLisp

namespace Run

/-- (x.Grounds n Q) says that from a grounded store with at least n contexts the computation leads
to a grounded store, which has no fewer contexts, and that the number of contexts it has and the
result, if there is one, satisfy Q.
-/
def Grounds {α : Type} (n : Nat) (Q : Nat → α → Prop) (x : Run α)
    : Prop :=
  ∀ scope st, st.Grounded → n ≤ st.contexts.size →
    (x.outcome scope st).2.Grounded
      ∧ st.contexts.size ≤ (x.outcome scope st).2.contexts.size
      ∧ ∀ a, (x.outcome scope st).1 = .ok a → Q (x.outcome scope st).2.contexts.size a

/-- (IsValue N v) says that the value refers to the first contexts only. -/
abbrev IsValue (N : Nat) (v : Value)
    : Prop :=
  Among (· < N) v.contexts

abbrev AreValues (N : Nat) (vs : List Value)
    : Prop :=
  Among (· < N) (contextsOfAll vs)

abbrev IsNode (N : Nat) (n : Node)
    : Prop :=
  Among (· < N) n.contexts

/-- A value together with a context. -/
abbrev IsResult (N : Nat) (result : Value × ContextId)
    : Prop :=
  Among (· < N) result.1.contexts ∧ result.2 < N

abbrev IsAny {α : Type} (_ : Nat) (_ : α)
    : Prop :=
  True

variable {α β : Type} {n : Nat} {Q : Nat → α → Prop} {R : Nat → β → Prop}

/-- What holds from some number of contexts on holds from a larger number on. -/
theorem Grounds.weaken {x : Run α} (grounds : x.Grounds n Q) {N : Nat} (le : n ≤ N)
    : x.Grounds N Q :=
  fun scope st grounded enough => grounds scope st grounded (Nat.le_trans le enough)

/-- A computation that leaves the store as it is, with a result. -/
theorem Grounds.pure {a : α} (holds : ∀ N, n ≤ N → Q N a)
    : (pure a : Run α).Grounds n Q :=
  fun _ st grounded enough => ⟨grounded, Nat.le_refl _, fun _ same => by
    obtain rfl : a = _ := by simpa using same
    exact holds _ enough⟩

/-- A run that ends without a result keeps the store grounded. -/
theorem Grounds.throw {h : Halt}
    : (throw h : Run α).Grounds n Q :=
  fun _ _ grounded _ => ⟨grounded, Nat.le_refl _, fun _ same => by simp at same⟩

/-- So does one that fails. -/
theorem Grounds.fail {e : EvalError}
    : (fail e : Run α).Grounds n Q :=
  .throw

/-- So does one that is out of fuel. -/
theorem Grounds.exhausted
    : (exhausted : Run α).Grounds n Q :=
  .throw

/-- One run after another keeps the store grounded, if the second one does from what the first one
returned.
-/
theorem Grounds.bind {x : Run α} {f : α → Run β} (first : x.Grounds n Q)
    (rest : ∀ {N a}, n ≤ N → Q N a → (f a).Grounds N R)
    : (x >>= f).Grounds n R := by
  intro scope st grounded enough
  obtain ⟨grounded', grows, holds⟩ := first scope st grounded enough
  rw [outcome_bind]
  rcases step : x.outcome scope st with ⟨result, middle⟩
  rw [step] at grounded' grows holds
  cases result with
  | error h => exact ⟨grounded', grows, fun _ same => by simp at same⟩
  | ok a =>
      obtain ⟨grounded'', grows', holds'⟩ :=
        rest (Nat.le_trans enough grows) (holds a rfl) scope middle grounded' (Nat.le_refl _)
      exact ⟨grounded'', Nat.le_trans grows grows', holds'⟩

/-- A computation that knows more about its result. -/
theorem Grounds.imp {x : Run α} {Q' : Nat → α → Prop} (grounds : x.Grounds n Q)
    (more : ∀ {N a}, n ≤ N → Q N a → Q' N a)
    : x.Grounds n Q' := by
  intro scope st grounded enough
  obtain ⟨grounded', grows, holds⟩ := grounds scope st grounded enough
  exact ⟨grounded', grows, fun a same => more (Nat.le_trans enough grows) (holds a same)⟩

/-- A choice keeps the store grounded if both of its runs do. -/
theorem Grounds.ite {p : Prop} [Decidable p] {x y : Run α} (yes : p → x.Grounds n Q)
    (no : ¬p → y.Grounds n Q)
    : (if p then x else y).Grounds n Q := by
  split
  · exact yes ‹_›
  · exact no ‹_›

/-- An attempt has a result that may be an error, about which nothing is known. -/
theorem Grounds.attempt {x : Run α} (grounds : x.Grounds n Q)
    : (attempt x).Grounds n (fun N result => ∀ a, result = .ok a → Q N a) := by
  intro scope st grounded enough
  obtain ⟨grounded', grows, holds⟩ := grounds scope st grounded enough
  rw [outcome_attempt]
  rcases step : x.outcome scope st with ⟨result, after⟩
  rw [step] at grounded' grows holds
  cases result with
  | ok a =>
      refine ⟨grounded', grows, ?_⟩
      rintro _ ⟨⟩ b ⟨⟩
      exact holds a rfl
  | error h =>
      cases h with
      | error e =>
          refine ⟨grounded', grows, ?_⟩
          rintro _ ⟨⟩ b ⟨⟩
      | outOfFuel => exact ⟨grounded', grows, fun _ same => by simp at same⟩

/-- The result of a function refers only to contexts there are if it does whenever there is one. -/
theorem Grounds.ofExcept {result : Except EvalError α}
    (holds : ∀ N a, n ≤ N → result = .ok a → Q N a)
    : (ofExcept result).Grounds n Q := by
  cases result with
  | ok a => exact .pure fun N le => holds N a le rfl
  | error e => exact .fail

/-- So does the value that a function gives from values which refer to no more. -/
theorem Grounds.ofGives {result : Except EvalError Value} (gives : Gives n result)
    : (Run.ofExcept result).Grounds n IsValue :=
  .ofExcept fun _ v le given => (gives v given).mono le

/-- To read the store keeps it grounded. -/
theorem Grounds.get
    : (get : Run Store).Grounds n IsAny :=
  fun _ _ grounded _ => ⟨grounded, Nat.le_refl _, fun _ _ => trivial⟩

/-- A new number adds nothing that refers to contexts. -/
theorem Grounds.newIdentity
    : newIdentity.Grounds n IsAny :=
  fun _ _ grounded _ =>
    ⟨grounded.aside rfl rfl grounded.sound rfl, Nat.le_refl _, fun _ _ => trivial⟩

/-- Neither does a new arrangement. -/
theorem Grounds.newArrangement
    : newArrangement.Grounds n IsAny :=
  fun _ _ grounded _ =>
    ⟨grounded.aside rfl rfl grounded.sound rfl, Nat.le_refl _, fun _ _ => trivial⟩

/-- Neither does an arrangement that may not be needed. -/
theorem Grounds.arrangementIf {needed : Bool}
    : (arrangementIf needed).Grounds n IsAny := by
  unfold Run.arrangementIf
  split
  · exact .newArrangement
  · exact .pure fun _ _ => trivial

/-- Neither does a text that is written. -/
theorem Grounds.write {text : String}
    : (write text).Grounds n IsAny :=
  fun _ _ grounded _ =>
    ⟨grounded.aside rfl rfl grounded.sound rfl, Nat.le_refl _, fun _ _ => trivial⟩

/-- The host is asked for something that refers to no more than the question. -/
theorem Grounds.askHost {question : Host → Except EvalError Value × Host}
    (next : ∀ host : Host, host.Next (question host).2)
    (gives : ∀ host : Host, host.Sound → host.Honest → Gives n (question host).1)
    : (Run.askHost question).Grounds n IsValue := by
  intro scope st grounded enough
  have step := next st.host
  rw [outcome_askHost]
  refine ⟨grounded.aside rfl rfl (grounded.sound.next step) step.types, Nat.le_refl _, ?_⟩
  intro v same
  cases answer : (question st.host).1 with
  | error e => simp [answer] at same
  | ok w =>
      obtain rfl : w = v := by simpa [answer] using same
      exact (gives st.host grounded.sound grounded.honest w answer).mono enough

/-- What the host answers for a member of a value refers to what its arguments do, by its honesty.
-/
theorem Grounds.askInvoke {target : Value} {member : String} {args : List Value}
    (older : Among (· < n) target.contexts) (values : Among (· < n) (contextsOfAll args))
    : (Run.askHost (·.invoke target member args)).Grounds n IsValue :=
  .askHost (fun host => host.next_invoke target member args)
    fun _ sound honest => honest.gives_invoke sound older values

/-- So does what it answers for a member of a type. -/
theorem Grounds.askInvokeStatic {type member : String} {args : List Value}
    (values : Among (· < n) (contextsOfAll args))
    : (Run.askHost (·.invokeStatic type member args)).Grounds n IsValue :=
  .askHost (fun host => host.next_invokeStatic type member args)
    fun _ sound honest => honest.gives_invokeStatic sound values

/-- To ask whether a context lives keeps the store grounded, since what is collected referred to
contexts there are.
-/
theorem Grounds.isLiving {c : ContextId}
    : (isLiving c).Grounds n IsAny := by
  intro scope st grounded _
  unfold Run.isLiving
  rw [outcome_bind, outcome_read]
  dsimp only
  rw [outcome_bind, outcome_get]
  dsimp only
  split
  · exact ⟨grounded, Nat.le_refl _, fun _ _ => trivial⟩
  · exact ⟨grounded.aside rfl rfl grounded.sound rfl, Nat.le_refl _, fun _ _ => trivial⟩

/-- Changed surroundings make no difference, since every scope is considered. -/
theorem Grounds.withReader {f : Scope → Scope} {x : Run α} (grounds : x.Grounds n Q)
    : (withReader f x : Run α).Grounds n Q :=
  fun scope => grounds (f scope)

/-- Neither does the context that a run is in. -/
theorem Grounds.inContext {c : ContextId} {x : Run α} (grounds : x.Grounds n Q)
    : (inContext c x).Grounds n Q :=
  .withReader grounds

/-- Neither do the values that are at hand. -/
theorem Grounds.holding {values : List Value} {x : Run α} (grounds : x.Grounds n Q)
    : (holding values x).Grounds n Q :=
  .withReader grounds

/-- Several runs, one after the other, keep the store grounded, and their results stay fit as
contexts are added. Witness: induction on the items.
-/
theorem Grounds.gather {items : List α} {value : β → Value} {f : α → Run β}
    (mono : ∀ {N N' b}, R N b → N ≤ N' → R N' b) (each : ∀ a ∈ items, (f a).Grounds n R)
    : (gather value f items).Grounds n (fun N results => ∀ b ∈ results, R N b) := by
  induction items generalizing n with
  | nil => exact .pure fun _ _ b absent => absurd absent List.not_mem_nil
  | cons a rest ih =>
      unfold Run.gather
      refine (each a List.mem_cons_self).bind fun le first => ?_
      have later := ih fun b listed => (each b (List.mem_cons_of_mem _ listed)).weaken le
      refine later.holding.bind fun le' others => .pure fun _ le'' b listed => ?_
      rcases List.mem_cons.mp listed with rfl | later
      · exact mono first (Nat.le_trans le' le'')
      · exact mono (others b later) le''

/-- Neither does another bound on calls. -/
theorem Grounds.withCallLimit {limit : Nat} {x : Run α} (grounds : x.Grounds n Q)
    : (withCallLimit limit x).Grounds n Q :=
  .withReader grounds

/-- A run inside a call keeps the store grounded, as it does by itself, or fails. -/
theorem Grounds.insideCall {x : Run α} (grounds : x.Grounds n Q)
    : (insideCall x).Grounds n Q := by
  intro scope st
  unfold Run.insideCall
  rw [outcome_bind, outcome_read]
  dsimp only
  split
  · exact grounds.withReader scope st
  · exact Grounds.fail scope st

/-- So does a run inside the computation of a slot. -/
theorem Grounds.insideSlot {slot : Slot} {x : Run α} (grounds : x.Grounds n Q)
    : (insideSlot slot x).Grounds n Q := by
  intro scope st grounded enough
  rw [outcome_insideSlot]
  split
  · exact Grounds.fail scope st grounded enough
  · obtain ⟨kept, grows, holds⟩ := grounds scope (st.enter slot.id)
      (grounded.aside rfl rfl grounded.sound rfl) enough
    exact ⟨kept.aside rfl rfl kept.sound rfl, grows, holds⟩

end Run
end IncrementalLisp
