import IncrementalLisp.Proofs.Primitive.Alike
import IncrementalLisp.Proofs.Value.References

/-! What a primitive computes refers only to contexts that its arguments refer to: it is a plain
value, or put together from parts of the arguments.
-/

namespace IncrementalLisp

open Arithmetic Collections

variable {N : Nat}

/-- A plain value refers to no context. -/
theorem Value.among_of_plain {v : Value} (plain : v.isPlain)
    : Among (· < N) v.contexts := by
  rw [Value.contexts_of_plain plain]
  exact among_nil

/-- (Gives N x) says that a value, if one results, refers to the first contexts only. -/
def Gives (N : Nat) {ε : Type} (x : Except ε Value)
    : Prop :=
  ∀ v, x = .ok v → Among (· < N) v.contexts

/-- A value that refers to contexts there are is given. -/
theorem Gives.ok {ε : Type} {v : Value} (older : Among (· < N) v.contexts)
    : Gives N (.ok v : Except ε Value) := by
  rintro _ ⟨⟩
  exact older

/-- A fault gives no value. -/
theorem Gives.error {ε : Type} {e : ε}
    : Gives N (.error e : Except ε Value) := by
  rintro _ ⟨⟩

/-- Plain values are given, whatever contexts there are. -/
theorem Gives.plain {ε : Type} {x : Except ε Value} (plain : ∀ v, x = .ok v → v.isPlain)
    : Gives N x :=
  fun v ran => Value.among_of_plain (plain v ran)

/-- The items of an argument refer to what the argument does. -/
theorem among_itemsArg {v : Value} {items : List Value} (older : Among (· < N) v.contexts)
    (got : itemsArg v = .ok items)
    : Among (· < N) (contextsOfAll items) := by
  unfold itemsArg at got
  split at got
  · rename_i collection
    obtain rfl := Except.ok.inj got
    exact among_items? older collection
  · cases got

/-- A computation that takes the items of a collection first. -/
theorem Gives.ofItems {v : Value} {rest : List Value → Except Fault Value}
    (older : Among (· < N) v.contexts)
    (further : ∀ {items}, Among (· < N) (contextsOfAll items) → Gives N (rest items))
    : Gives N (itemsArg v >>= rest) := by
  intro w ran
  obtain ⟨items, got, ran⟩ := ok_of_bind ran
  exact further (among_itemsArg older got) w ran

-----------------------------------------------------------------------------------------
-- Collections
-----------------------------------------------------------------------------------------

/-- The item at a position refers to what the items do. -/
theorem among_getElem? {items : List Value} {i : Nat} {v : Value}
    (older : Among (· < N) (contextsOfAll items)) (found : items[i]? = some v)
    : Among (· < N) v.contexts :=
  among_contextsOfAll.mp older v (List.mem_of_getElem? found)

/-- So does the first item. -/
theorem gives_firstOf {v : Value} (older : Among (· < N) v.contexts)
    : Gives N (firstOf v) := by
  refine .ofItems older fun {items} parts => .ok ?_
  cases items with
  | nil => exact among_nil
  | cons w rest => exact among_contextsOfAll.mp parts w List.mem_cons_self

/-- So do the others. -/
theorem gives_restOf {v : Value} (older : Among (· < N) v.contexts)
    : Gives N (restOf v) := by
  refine .ofItems older fun parts => .ok ?_
  rw [among_contextsOfAll] at parts
  rw [Value.contexts, among_contextsOfAll]
  exact fun w member => parts w (List.mem_of_mem_drop member)

/-- So does the item at an index. -/
theorem gives_itemAt {coll index : Value} (older : Among (· < N) coll.contexts)
    : Gives N (itemAt coll index) := by
  refine .ofItems older fun parts => ?_
  split
  · split
    · rename_i found
      obtain ⟨i, _, listed⟩ := Option.bind_eq_some_iff.mp found
      exact .ok (among_getElem? parts listed)
    · exact .error
  · exact .error

/-- An item in front of a collection refers to what both do. -/
theorem gives_consOnto {item coll : Value} (first : Among (· < N) item.contexts)
    (older : Among (· < N) coll.contexts)
    : Gives N (consOnto item coll) := by
  refine .ofItems older fun parts => .ok ?_
  rw [Value.contexts, contextsOfAll, among_append]
  exact ⟨first, parts⟩

/-- Collections put together refer to what they do, one by one. -/
theorem gives_concatenated {colls : List Value} (older : Among (· < N) (contextsOfAll colls))
    : Gives N (concatenated colls) := by
  have taken {items : List (List Value)} (got : colls.mapM itemsArg = .ok items)
      : Among (· < N) (contextsOfAll items.flatten) := by
    induction colls generalizing items with
    | nil =>
        obtain rfl : [] = items := by simpa [pure, Except.pure] using got
        exact among_nil
    | cons v rest ih =>
        rw [contextsOfAll, among_append] at older
        rw [List.mapM_cons] at got
        obtain ⟨first, here, got⟩ := ok_of_bind got
        obtain ⟨others, later, got⟩ := ok_of_bind got
        obtain rfl := Except.ok.inj got
        have parts := among_itemsArg older.1 here
        have more := ih older.2 later
        rw [among_contextsOfAll] at parts more ⊢
        intro w member
        rw [List.flatten_cons, List.mem_append] at member
        exact member.elim (parts w) (more w)
  intro w ran
  obtain ⟨items, got, ran⟩ := ok_of_bind ran
  rw [← Except.ok.inj ran]
  exact taken got

variable {a : Arrangement}

/-- A collection with one more item refers to what both do, by its kind. -/
theorem gives_conjoin {coll item : Value} (older : Among (· < N) coll.contexts)
    (added : Among (· < N) item.contexts)
    : Gives N (conjoin a coll item) := by
  cases coll with
  | nil => exact .ok (by simpa using added)
  | list items source => exact .ok (by simpa using ⟨added, by simpa using older⟩)
  | vector items =>
      refine .ok ?_
      rw [Value.contexts, among_contextsOfAll] at older ⊢
      intro v member
      rcases List.mem_append.mp member with old | new
      · exact older v old
      · rw [List.mem_singleton.mp new]
        exact added
  | set items => exact .ok (among_insertItem added older)
  | map entries =>
      unfold conjoin
      dsimp only
      split
      · rename_i k v pair
        have parts := among_items? added pair
        rw [contextsOfAll, contextsOfAll, among_append, among_append] at parts
        exact .ok (among_insertEntry parts.1 parts.2.1 older)
      · exact .error
  | _ => exact .error

/-- So does one with several more. Witness: induction on the items. -/
theorem gives_conjoinAll {args : List Value} (older : Among (· < N) (contextsOfAll args))
    : Gives N (conjoinAll a args) := by
  cases args with
  | nil => exact .error
  | cons coll additions =>
      rw [contextsOfAll, among_append] at older
      unfold conjoinAll
      dsimp only
      induction additions generalizing coll with
      | nil => exact .ok older.1
      | cons item rest ih =>
          rw [contextsOfAll, among_append] at older
          intro w ran
          rw [List.foldlM_cons] at ran
          obtain ⟨next, joined, ran⟩ := ok_of_bind ran
          exact ih next ⟨gives_conjoin older.1 older.2.1 next joined, older.2.2⟩ w ran

/-- A value in a collection refers to what the collection and the default do. -/
theorem among_valueAt {coll key default : Value} (older : Among (· < N) coll.contexts)
    (keyed : Among (· < N) key.contexts) (other : Among (· < N) default.contexts)
    : Among (· < N) (valueAt coll key default).contexts := by
  have found {o : Option Value} (held : ∀ v, o = some v → Among (· < N) v.contexts)
      : Among (· < N) (o.getD default).contexts := by
    cases o with
    | none => exact other
    | some v => exact held v rfl
  unfold valueAt
  cases coll with
  | map entries =>
      refine found fun v known => ?_
      obtain ⟨e, listed, rfl⟩ := Option.map_eq_some_iff.mp known
      rw [Value.contexts, among_contextsOfEntries] at older
      exact (older e (List.mem_of_find?_eq_some listed)).2
  | vector items =>
      refine found fun v known => ?_
      obtain ⟨i, _, listed⟩ := Option.bind_eq_some_iff.mp known
      exact among_getElem? older listed
  | set items =>
      refine found fun v known => ?_
      dsimp only at known
      split at known
      · rw [← Option.some.inj known]
        exact keyed
      · cases known
  | _ => exact other

/-- So does a value that is looked up, by the number of arguments. -/
theorem gives_lookedUp {args : List Value} (older : Among (· < N) (contextsOfAll args))
    : Gives N (lookedUp args) := by
  unfold lookedUp
  split
  · simp only [contextsOfAll, among_append] at older
    exact .ok (among_valueAt older.1 older.2.1 among_nil)
  · simp only [contextsOfAll, among_append] at older
    exact .ok (among_valueAt older.1 older.2.1 older.2.2.1)
  · exact .error

/-- A collection with a value for a key refers to what all three do, by its kind. -/
theorem gives_associated {coll key value : Value} (older : Among (· < N) coll.contexts)
    (keyed : Among (· < N) key.contexts) (valued : Among (· < N) value.contexts)
    : Gives N (associated a coll key value) := by
  cases coll with
  | nil => exact .ok (by simpa using ⟨keyed, valued⟩)
  | map entries => exact .ok (among_insertEntry keyed valued older)
  | vector items =>
      rw [Value.contexts, among_contextsOfAll] at older
      unfold associated
      dsimp only
      split
      · split
        · refine .ok ?_
          rw [Value.contexts, among_contextsOfAll]
          intro v member
          rcases List.mem_or_eq_of_mem_set member with old | rfl
          · exact older v old
          · exact valued
        · split
          · refine .ok ?_
            rw [Value.contexts, among_contextsOfAll]
            intro v member
            rcases List.mem_append.mp member with old | new
            · exact older v old
            · rw [List.mem_singleton.mp new]
              exact valued
          · exact .error
      · exact .error
  | _ => exact .error

-----------------------------------------------------------------------------------------
-- Primitives
-----------------------------------------------------------------------------------------

/-- A count refers to nothing. -/
theorem gives_countOf {v : Value}
    : Gives N (countOf v) := by
  intro w ran
  unfold countOf at ran
  split at ran
  · rw [← Except.ok.inj ran]
    exact among_nil
  · obtain ⟨items, _, ran⟩ := ok_of_bind ran
    rw [← Except.ok.inj ran]
    exact among_nil

/-- A truth about equality refers to nothing. -/
theorem gives_allEqual {args : List Value}
    : Gives N (allEqual args) := by
  unfold allEqual
  split
  · exact .error
  · exact .ok (Value.among_of_plain (truth_plain _))

/-- What a primitive computes refers to no more than its arguments. Witness: by the primitive. -/
theorem Primitive.gives_compute {p : Primitive} {args : List Value}
    (older : Among (· < N) (contextsOfAll args))
    : Gives N (p.compute a args) := by
  have part := among_contextsOfAll.mp older
  unfold Primitive.compute
  split
  case h_1 => exact .plain fun _ => sum_plain
  case h_2 => exact .plain fun _ => difference_plain
  case h_3 => exact .plain fun _ => product_plain
  case h_4 => exact .plain fun _ => quotient_plain
  case h_5 | h_6 => exact .plain fun _ => numeric_plain
  case h_7 => exact gives_allEqual
  case h_8 | h_9 | h_10 | h_11 => exact .plain fun _ => ordered_plain
  case h_12 | h_13 => exact .ok (Value.among_of_plain (truth_plain _))
  case h_14 | h_15 | h_16 | h_19 => exact .ok among_nil
  case h_17 => exact .plain fun _ => symbolOf_plain
  case h_18 => exact .plain fun _ => keywordOf_plain
  case h_20 => exact gives_countOf
  case h_21 => exact gives_firstOf (part _ (by simp))
  case h_22 => exact gives_restOf (part _ (by simp))
  case h_23 => exact gives_itemAt (part _ (by simp))
  case h_24 => exact gives_consOnto (part _ (by simp)) (part _ (by simp))
  case h_25 => exact gives_conjoinAll older
  case h_26 => exact gives_concatenated older
  case h_27 => exact gives_lookedUp older
  case h_28 => exact gives_associated (part _ (by simp)) (part _ (by simp)) (part _ (by simp))
  case h_29 => exact .ofItems (part _ (by simp)) fun items => .ok items
  case h_30 => exact .error

/-- The function and the arguments of an applied primitive are among its arguments. -/
theorem Primitive.among_spread {args spread : List Value} {f : Function}
    (older : Among (· < N) (contextsOfAll args)) (ran : Primitive.spread args = .ok (f, spread))
    : Among (· < N) f.contexts ∧ Among (· < N) (contextsOfAll spread) := by
  unfold Primitive.spread at ran
  split at ran
  · rename_i callee next more
    obtain ⟨items, got, ran⟩ := ok_of_bind ran
    obtain ⟨rfl, rfl⟩ : callee = f ∧ (next :: more).dropLast ++ items = spread := by
      simpa using ran
    rw [contextsOfAll, among_append] at older
    have last := among_contextsOfAll.mp older.2 _ (List.getLast_mem (List.cons_ne_nil next more))
    have parts := among_itemsArg last got
    have rest := among_contextsOfAll.mp older.2
    rw [among_contextsOfAll] at parts ⊢
    refine ⟨older.1, ?_⟩
    intro v member
    rcases List.mem_append.mp member with early | late
    · exact rest v (List.dropLast_subset _ early)
    · exact parts v late
  · cases ran
  · cases ran

end IncrementalLisp
