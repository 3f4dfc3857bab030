import IncrementalLisp.Machine.Call
import IncrementalLisp.Node.Optimize
import IncrementalLisp.Proofs.Value.Equality

/-! Values that refer only to certain contexts, such as the first ones of a store. What is built
from such values refers to no other contexts: bindings, collections, and nodes after substitution
and simplification.
-/

namespace IncrementalLisp

/-- (Among p contexts) says that the property holds of all of the contexts. -/
def Among (p : ContextId → Prop) (contexts : List ContextId)
    : Prop :=
  ∀ c ∈ contexts, p c

variable {p : ContextId → Prop}

/-- No contexts satisfy anything. -/
@[simp]
theorem among_nil
    : Among p [] := by
  simp [Among]

/-- Contexts satisfy something if the first one and the others do. -/
@[simp]
theorem among_cons {c : ContextId} {rest : List ContextId}
    : Among p (c :: rest) ↔ p c ∧ Among p rest := by
  simp [Among]

/-- Contexts in two lists do if those of each do. -/
@[simp]
theorem among_append {first rest : List ContextId}
    : Among p (first ++ rest) ↔ Among p first ∧ Among p rest := by
  simp [Among, or_imp, forall_and]

/-- Contexts below a number are below a larger one. -/
theorem Among.mono {contexts : List ContextId} {N n : Nat} (among : Among (· < N) contexts)
    (le : N ≤ n)
    : Among (· < n) contexts :=
  fun c member => Nat.lt_of_lt_of_le (among c member) le

-----------------------------------------------------------------------------------------
-- Parts
-----------------------------------------------------------------------------------------

/-- Several values refer to what each of them does. Witness: induction on them. -/
@[simp]
theorem among_contextsOfAll {vs : List Value}
    : Among p (contextsOfAll vs) ↔ ∀ v ∈ vs, Among p v.contexts := by
  induction vs with
  | nil => simp [contextsOfAll]
  | cons v rest ih => simp [contextsOfAll, ih]

/-- Entries refer to what their keys and values do. Witness: induction on them. -/
@[simp]
theorem among_contextsOfEntries {es : List (Value × Value)}
    : Among p (contextsOfEntries es) ↔ ∀ e ∈ es, Among p e.1.contexts ∧ Among p e.2.contexts := by
  induction es with
  | nil => simp [contextsOfEntries]
  | cons e rest ih => simp [contextsOfEntries, ih, and_assoc]

/-- Bindings refer to what their values do. Witness: induction on them. -/
@[simp]
theorem among_contextsOfBindings {b : Bindings}
    : Among p (contextsOfBindings b) ↔ ∀ e ∈ b, Among p e.2.contexts := by
  induction b with
  | nil => simp [contextsOfBindings]
  | cons e rest ih => simp [contextsOfBindings, ih]

/-- Several nodes refer to what each of them does. Witness: induction on them. -/
@[simp]
theorem among_contextsOfNodes {ns : List Node}
    : Among p (contextsOfNodes ns) ↔ ∀ n ∈ ns, Among p n.contexts := by
  induction ns with
  | nil => simp [contextsOfNodes]
  | cons n rest ih => simp [contextsOfNodes, ih]

/-- Pairs refer to what their expressions do. Witness: induction on them. -/
@[simp]
theorem among_contextsOfPairs {ps : List (Symbol × Node)}
    : Among p (contextsOfPairs ps) ↔ ∀ pair ∈ ps, Among p pair.2.contexts := by
  induction ps with
  | nil => simp [contextsOfPairs]
  | cons pair rest ih => simp [contextsOfPairs, ih]

attribute [simp] Value.contexts Function.contexts Expander.contexts Shape.contexts

/-- A node refers to what its shape does. -/
theorem Node.contexts_eq (node : Node)
    : node.contexts = node.shape.contexts := by
  obtain ⟨shape, _, _, _⟩ := node
  rw [Node.contexts]

/-- A closure refers to its context, and to what its body and what it captured do. -/
@[simp]
theorem Closure.contexts_eq (f : Closure)
    : f.contexts = f.context :: (f.body.contexts ++ contextsOfBindings f.captured) := by
  obtain ⟨_, _, _, _, _, _⟩ := f
  rw [Closure.contexts]

/-- An expander of a user refers to what its body and what it captured do. -/
@[simp]
theorem UserExpander.contexts_eq (u : UserExpander)
    : u.contexts = u.body.contexts ++ contextsOfBindings u.captured := by
  obtain ⟨_, _, _, _, _⟩ := u
  rw [UserExpander.contexts]

/-- A macro refers to what its function does. -/
@[simp]
theorem Macro.contexts_eq (f : Macro)
    : f.contexts = f.function.contexts := by
  obtain ⟨_, _⟩ := f
  rw [Macro.contexts]

-----------------------------------------------------------------------------------------
-- Bindings
-----------------------------------------------------------------------------------------

section Bound

variable {b : Bindings} (among : Among p (contextsOfBindings b))

include among

/-- A lexical value refers to what the bindings do. -/
theorem among_of_lexical? {s : Symbol} {v : Value} (found : b.lexical? s = some v)
    : Among p v.contexts := by
  unfold Bindings.lexical? at found
  split at found
  · cases found
  · obtain ⟨before, after, split, _⟩ := List.lookup_eq_some_iff.mp found
    exact among_contextsOfBindings.mp among (s, v) (by simp [split])

/-- Bindings without a symbol refer to no more. -/
theorem among_erase (s : Symbol)
    : Among p (contextsOfBindings (b.erase s)) := by
  rw [among_contextsOfBindings] at among ⊢
  exact fun e member => among e (List.mem_filter.mp member).1

/-- Neither do those without several symbols. Witness: induction on these. -/
theorem among_eraseAll (names : List Symbol)
    : Among p (contextsOfBindings (b.eraseAll names)) := by
  unfold Bindings.eraseAll
  induction names generalizing b with
  | nil => exact among
  | cons s rest ih => exact ih (among_erase among s)

/-- Bindings with a value refer to what they and the value do. -/
theorem among_insert (s : Symbol) {v : Value} (value : Among p v.contexts)
    : Among p (contextsOfBindings (b.insert s v)) := by
  unfold Bindings.insert
  rw [contextsOfBindings, among_append]
  exact ⟨value, among_erase among s⟩

/-- Binding names one after the other to values keeps bindings among. -/
theorem among_bound {args : List Value} (values : Among p (contextsOfAll args))
    (params : List Symbol)
    : Among p (contextsOfBindings
        ((params.zip args).foldl (fun b (s, v) => Bindings.insert b s v) b)) := by
  induction params generalizing b args with
  | nil => exact among
  | cons s rest ih =>
      cases args with
      | nil => exact among
      | cons v others =>
          rw [contextsOfAll, among_append] at values
          exact ih (among_insert among s values.1) values.2

end Bound

/-- The frame of a closure refers to what the closure and its arguments do, whatever the rest takes.
-/
theorem Closure.among_frame {f : Closure} {args : List Value} (among : Among p f.contexts)
    (values : Among p (contextsOfAll args))
    : Among p (contextsOfBindings (f.frame args)) := by
  have captured : Among p (contextsOfBindings f.captured) := by
    simp only [Closure.contexts_eq, among_cons, among_append] at among
    exact among.2.2
  have bound := among_bound captured values f.params
  unfold Closure.frame
  cases f.rest with
  | none => exact bound
  | some r =>
      apply among_insert bound
      rw [among_contextsOfAll] at values
      simpa using fun v member => values v (List.mem_of_mem_drop member)

-----------------------------------------------------------------------------------------
-- Collections
-----------------------------------------------------------------------------------------

variable {a : Arrangement}

/-- A set with one more item refers to no other contexts. -/
theorem among_insertItem {item : Value} {items : List Value} (first : Among p item.contexts)
    (rest : Among p (contextsOfAll items))
    : Among p (contextsOfAll (Value.insertItem a item items)) := by
  rw [among_contextsOfAll] at rest ⊢
  intro v member
  rcases Value.mem_upsert member with rfl | earlier
  · exact first
  · exact rest v earlier

/-- A set refers to what its items do, which are some of those that were put in. -/
theorem among_setOf {items : List Value} (among : Among p (contextsOfAll items))
    : Among p (Value.setOf a items).contexts := by
  rw [Value.setOf, Value.contexts]
  rw [among_contextsOfAll] at among ⊢
  exact fun v member => among v (Value.mem_distinct member)

/-- A map with one more entry refers to no other contexts. -/
theorem among_insertEntry {key value : Value} {entries : List (Value × Value)}
    (keyed : Among p key.contexts) (valued : Among p value.contexts)
    (rest : Among p (contextsOfEntries entries))
    : Among p (contextsOfEntries (Value.insertEntry a key value entries)) := by
  rw [among_contextsOfEntries] at rest ⊢
  intro e member
  rcases Value.mem_upsert member with rfl | earlier
  · exact ⟨keyed, valued⟩
  · exact rest e earlier

/-- A map refers to what its entries do, which are some of those that were put in. -/
theorem among_mapOf {entries : List (Value × Value)} (among : Among p (contextsOfEntries entries))
    : Among p (Value.mapOf a entries).contexts := by
  rw [Value.mapOf, Value.contexts]
  rw [among_contextsOfEntries] at among ⊢
  exact fun e member => among e (Value.mem_distinctEntries member)

/-- The parts of a pair are among the items, by the recursion of pairs. -/
theorem mem_of_pairs {α : Type} {items : List α} {pair : α × α}
    (member : pair ∈ Value.pairs items)
    : pair.1 ∈ items ∧ pair.2 ∈ items := by
  induction items using Value.pairs.induct with
  | case1 x y rest ih =>
      rw [Value.pairs, List.mem_cons] at member
      rcases member with rfl | later
      · simp
      · simp [ih later]
  | case2 items few =>
      unfold Value.pairs at member
      split at member
      · exact absurd rfl (few _ _ _)
      · cases member

/-- A map that is built from items refers to what these do. -/
theorem among_mapOfItems? {items : List Value} {v : Value}
    (among : Among p (contextsOfAll items)) (built : mapOfItems? a items = some v)
    : Among p v.contexts := by
  unfold mapOfItems? at built
  split at built
  · rw [← Option.some.inj built]
    apply among_mapOf
    rw [among_contextsOfAll] at among
    rw [among_contextsOfEntries]
    intro e member
    have parts := mem_of_pairs member
    exact ⟨among _ parts.1, among _ parts.2⟩
  · cases built

/-- The items of a collection refer to what the collection does, by its kind. -/
theorem among_items? {v : Value} {items : List Value} (among : Among p v.contexts)
    (collection : v.items? = some items)
    : Among p (contextsOfAll items) := by
  cases v <;> simp only [Value.items?, Option.some.injEq, reduceCtorEq] at collection
    <;> subst collection
  case map entries =>
    simp only [Value.contexts, among_contextsOfEntries] at among
    rw [among_contextsOfAll]
    intro v member
    obtain ⟨e, listed, rfl⟩ := List.mem_map.mp member
    simpa using among e listed
  all_goals exact among

end IncrementalLisp
