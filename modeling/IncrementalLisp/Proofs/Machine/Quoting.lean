import IncrementalLisp.Proofs.Machine.CommonLanguage
import Mathlib.Algebra.Ring.Nat

/-! Quoting returns the form with exactly its outermost unquoted forms filled in. These are
collected from left to right, evaluated one after the other, with what is filled already at hand,
and their values put where they were, without looking into the values. The tables of the form are
made anew, each after what is in it, so that they are arranged anew; a form without unquoted forms
comes back as it is otherwise.
-/

namespace IncrementalLisp

open Filter

-----------------------------------------------------------------------------------------
-- Tables of new items
-----------------------------------------------------------------------------------------

/-- Some items in a table, none of which is the same as another. -/
def Arrangement.arranged {α : Type} (a : Arrangement) (items : List α)
    : List α :=
  items.foldl (fun table x => table.take (a table.length) ++ x :: table.drop (a table.length)) []

/-- An arrangement puts all items into the table, in some order. Witness: induction on the items. -/
theorem Arrangement.arranged_perm {α : Type} (a : Arrangement) (items : List α)
    : (a.arranged items).Perm items := by
  have onward (table : List α)
      : (items.foldl
          (fun table x => table.take (a table.length) ++ x :: table.drop (a table.length))
          table).Perm (table ++ items) := by
    induction items generalizing table with
    | nil => simp
    | cons x rest ih =>
        refine (ih _).trans ?_
        refine (List.perm_middle.append_right rest).trans ?_
        rw [List.take_append_drop]
        exact List.perm_middle.symm
  exact onward []

/-- What is put into a table is only arranged if no two items are the same. Witness: induction on
the items, none of which is the same as one in the table.
-/
theorem Value.foldl_upsert_eq_arranged {α : Type} {a : Arrangement} {same : α → α → Bool}
    {items : List α}
    (differ : Differ same items)
    : items.foldl (fun all x => upsert a same x all) [] = a.arranged items := by
  have onward (table : List α) (apart : ∀ y ∈ table, ∀ x ∈ items, ¬same y x)
      : items.foldl (fun all x => upsert a same x all) table
        = items.foldl
            (fun table x => table.take (a table.length) ++ x :: table.drop (a table.length))
            table := by
    induction items generalizing table with
    | nil => rfl
    | cons x rest ih =>
        obtain ⟨first, others⟩ := List.pairwise_cons.mp differ
        have put := upsert_of_new (a := a) fun y member => apart y member x List.mem_cons_self
        rw [List.foldl_cons, List.foldl_cons, put]
        refine ih others _ fun y member z late => ?_
        have among : y = x ∨ y ∈ table := by
          have split : y ∈ x :: table := by
            rw [← List.take_append_drop (a table.length) table]
            exact List.perm_middle.mem_iff.mp member
          exact List.mem_cons.mp split
        rcases among with rfl | early
        · exact first z late
        · exact apart y early z (List.mem_cons_of_mem _ late)
  exact onward [] nofun

/-- Entries with different keys are only arranged when they are put into a map. -/
theorem Value.distinctEntries_eq_arranged {a : Arrangement} {entries : List (Value × Value)}
    (differ : Differ (fun e f => equal e.1 f.1) entries)
    : distinctEntries a entries = a.arranged entries :=
  foldl_upsert_eq_arranged differ

-----------------------------------------------------------------------------------------
-- Unquoted forms
-----------------------------------------------------------------------------------------

/-- What is left open in a quoted form: an unquoted form, which stands behind some other forms, or
the order of a table, which is made for a number of items.
-/
inductive Hole where
  | unquoted (before : List Value) (form : Value)
  | table (count : Nat)

/-- What is put into a hole. -/
inductive Filler where
  | value (v : Value)
  | order (a : Arrangement)

/-- The value in the first of some fillers. -/
def firstValue : List Filler → Value
  | .value v :: _ => v
  | _ => .nil

/-- The arrangement in the first of some fillers. -/
def firstOrder : List Filler → Arrangement
  | .order a :: _ => a
  | _ => .last

mutual

/-- The outermost unquoted forms in a quoted form that stands behind some others, from left to
right, and its tables, each behind what is in it.
-/
def Value.holes : Value → List Value → List Hole
  | .list items _, before =>
      match unquoted? items with
      | some inner => [.unquoted before inner]
      | none => holesOfAll items before
  | .vector items, before => holesOfAll items before
  | .set items, before => holesOfAll items before ++ [.table items.length]
  | .map entries, before => holesOfEntries entries before ++ [.table entries.length]
  | _, _ => []
termination_by structural form => form

/-- The holes in several quoted forms. -/
def holesOfAll : List Value → List Value → List Hole
  | [], _ => []
  | form :: rest, before => form.holes before ++ holesOfAll rest (before ++ [form])
termination_by structural forms => forms

/-- The holes in the entries of a quoted map. -/
def holesOfEntries : List (Value × Value) → List Value → List Hole
  | [], _ => []
  | (key, v) :: rest, before =>
      key.holes before
        ++ (v.holes (before ++ [key]) ++ holesOfEntries rest (before ++ [key, v]))
termination_by structural entries => entries

end

/-- The number of the holes in a quoted form. -/
def Value.gaps (form : Value)
    : Nat :=
  (form.holes []).length

mutual

/-- A quoted form with the first of some fillers in its holes, one for each from left to right. -/
def Value.filled : Value → List Filler → Value
  | .list items source, fillers =>
      match unquoted? items with
      | some _ => firstValue fillers
      | none => .list (filledAll items fillers) source
  | .vector items, fillers => .vector (filledAll items fillers)
  | .set items, fillers =>
      .setOf (firstOrder (fillers.drop (holesOfAll items []).length)) (filledAll items fillers)
  | .map entries, fillers =>
      .map ((firstOrder (fillers.drop (holesOfEntries entries []).length)).arranged
        (filledEntries entries fillers))
  | form, _ => form
termination_by structural form => form

/-- Several quoted forms with fillers in their holes. -/
def filledAll : List Value → List Filler → List Value
  | [], _ => []
  | form :: rest, fillers =>
      form.filled fillers :: filledAll rest (fillers.drop form.gaps)
termination_by structural forms => forms

/-- The entries of a quoted map with fillers in their holes. -/
def filledEntries : List (Value × Value) → List Filler → List (Value × Value)
  | [], _ => []
  | (key, v) :: rest, fillers =>
      let others := fillers.drop key.gaps
      (key.filled fillers, v.filled others) :: filledEntries rest (others.drop v.gaps)
termination_by structural entries => entries

end

mutual

/-- (x.KeysApart fillers) says that no two keys of one map of a quoted form become equal when its
holes are filled.
-/
def Value.KeysApart : Value → List Filler → Prop
  | .list items _, fillers => (unquoted? items).isNone → AllKeysApart items fillers
  | .vector items, fillers => AllKeysApart items fillers
  | .set items, fillers => AllKeysApart items fillers
  | .map entries, fillers =>
      Value.Differ (fun e f => Value.equal e.1 f.1) (filledEntries entries fillers)
        ∧ EntriesKeysApart entries fillers
  | _, _ => True
termination_by structural form => form

/-- The same of several quoted forms. -/
def AllKeysApart : List Value → List Filler → Prop
  | [], _ => True
  | form :: rest, fillers =>
      form.KeysApart fillers ∧ AllKeysApart rest (fillers.drop form.gaps)
termination_by structural forms => forms

/-- The same of the entries of a quoted map. -/
def EntriesKeysApart : List (Value × Value) → List Filler → Prop
  | [], _ => True
  | (key, v) :: rest, fillers =>
      let others := fillers.drop key.gaps
      key.KeysApart fillers ∧ v.KeysApart others
        ∧ EntriesKeysApart rest (others.drop v.gaps)
termination_by structural entries => entries

end

/-- The store after the optimization of a form, if forms are optimized, which arranges tables once.
-/
def Config.afterOptimizing (config : Config) (st : Store)
    : Store :=
  st.afterTables (if config.optimizes then 1 else 0)

namespace Machine

open Run

-----------------------------------------------------------------------------------------
-- Filling in
-----------------------------------------------------------------------------------------

/-- What a machine puts into a hole: the value of an unquoted form at the time of its expansion,
while the forms before it are at hand as filled so far, or the arrangement of a new table.
-/
def fill (m : Machine) (c : ContextId) (k : Expander) (done : List Filler)
    : Hole → Run Filler
  | .unquoted before form => do
      return .value (← holding (filledAll before done) (m.evaluateNow c form k))
  | .table count => do return .order (← arrangementFor count)

/-- What a machine puts into some holes, one after the other, behind those filled so far. -/
def fillAll (m : Machine) (c : ContextId) (k : Expander)
    : List Filler → List Hole → Run (List Filler)
  | _, [] => return []
  | done, hole :: rest => do
      let filler ← m.fill c k done hole
      return filler :: (← fillAll m c k (done ++ [filler]) rest)

instance compared_fill {C : Comparison} {m m' : Machine} [m.Compared C m'] (c : ContextId)
    (k : Expander) (done : List Filler) (hole : Hole)
    : Run.Compared C (m.fill c k done hole) (m'.fill c k done hole) := by
  unfold fill
  split <;> infer_instance

instance compared_fillAll {C : Comparison} {m m' : Machine} [m.Compared C m'] (c : ContextId)
    (k : Expander) (done : List Filler) (holes : List Hole)
    : Run.Compared C (m.fillAll c k done holes) (m'.fillAll c k done holes) := by
  induction holes generalizing done with
  | nil =>
      unfold fillAll
      infer_instance
  | cons hole rest ih =>
      unfold fillAll
      infer_instance

section Filling

variable {m : Machine} {c : ContextId} {k : Expander} {scope : Scope} {done : List Filler}

/-- (m.Fills c k scope done holes fillers st after) says what a machine puts into some holes, one
after the other, behind those filled so far.
-/
def Fills (m : Machine) (c : ContextId) (k : Expander) (scope : Scope) (done : List Filler)
    (holes : List Hole) (fillers : List Filler) (st after : Store)
    : Prop :=
  (m.fillAll c k done holes).outcome scope st = (.ok fillers, after)

/-- Holes are filled by as many fillers as there are, the first ones first. Witness: induction on
the holes.
-/
theorem Fills.append {holes others : List Hole} {fillers : List Filler} {st after : Store}
    (fills : m.Fills c k scope done (holes ++ others) fillers st after)
    : ∃ first rest middle, fillers = first ++ rest ∧ first.length = holes.length
        ∧ m.Fills c k scope done holes first st middle
        ∧ m.Fills c k scope (done ++ first) others rest middle after := by
  induction holes generalizing st fillers done with
  | nil => exact ⟨[], fillers, st, rfl, rfl, rfl, by rwa [List.append_nil]⟩
  | cons hole holes ih =>
      unfold Fills at fills
      rw [List.cons_append, fillAll, outcome_bind_eq_ok] at fills
      obtain ⟨filler, next, one, fills⟩ := fills
      rw [outcome_bind_eq_ok] at fills
      obtain ⟨vs, _, more, ⟨⟩⟩ := fills
      obtain ⟨first, rest, middle, rfl, sizes, before, behind⟩ := ih more
      rw [List.append_assoc] at behind
      refine ⟨filler :: first, rest, middle, rfl, congrArg (· + 1) sizes, ?_, behind⟩
      exact (outcome_bind_of_eq_ok one).trans (outcome_bind_of_eq_ok before)

/-- One hole is filled with one filler. -/
theorem Fills.one {hole : Hole} {fillers : List Filler} {st after : Store}
    (fills : m.Fills c k scope done [hole] fillers st after)
    : ∃ filler, fillers = [filler]
        ∧ (m.fill c k done hole).outcome scope st = (.ok filler, after) := by
  unfold Fills at fills
  rw [fillAll, outcome_bind_eq_ok] at fills
  obtain ⟨filler, _, one, ⟨⟩⟩ := fills
  exact ⟨filler, rfl, one⟩

/-- The hole of an unquoted form is filled with its value. -/
theorem Fills.value {before : List Value} {form : Value} {fillers : List Filler} {st after : Store}
    (fills : m.Fills c k scope done [.unquoted before form] fillers st after)
    : ∃ v, fillers = [.value v]
        ∧ (m.evaluateNow c form k).outcome (scope.holding (filledAll before done)) st
          = (.ok v, after) := by
  obtain ⟨_, rfl, one⟩ := fills.one
  obtain ⟨v, _, came, ⟨⟩⟩ := outcome_bind_eq_ok.mp one
  exact ⟨v, rfl, came⟩

/-- The hole of a table is filled with its arrangement, whatever is at hand. -/
theorem Fills.order {count : Nat} {fillers : List Filler} {st after : Store}
    (fills : m.Fills c k scope done [.table count] fillers st after)
    : ∃ a, fillers = [.order a]
        ∧ ∀ scope, (arrangementFor count).outcome scope st = (.ok a, after) := by
  obtain ⟨_, rfl, one⟩ := fills.one
  obtain ⟨a, _, came, ⟨⟩⟩ := outcome_bind_eq_ok.mp one
  obtain ⟨b, drawn⟩ := outcome_arrangementFor st count
  obtain ⟨⟨⟩, rfl⟩ := Prod.mk.inj ((drawn scope).symm.trans came)
  exact ⟨_, rfl, drawn⟩

/-- Filling several forms keeps their number. Witness: induction on the forms. -/
theorem length_filledAll (xs : List Value) (fillers : List Filler)
    : (filledAll xs fillers).length = xs.length := by
  induction xs generalizing fillers with
  | nil => rfl
  | cons x rest ih => exact congrArg (· + 1) (ih _)

/-- Filling entries keeps their number. Witness: induction on the entries. -/
theorem length_filledEntries (es : List (Value × Value)) (fillers : List Filler)
    : (filledEntries es fillers).length = es.length := by
  induction es generalizing fillers with
  | nil => rfl
  | cons e rest ih => exact congrArg (· + 1) (ih _)

mutual

/-- A form has as many holes wherever it stands. Witness: by the form. -/
theorem length_holes
    : ∀ (x : Value) (before : List Value), (x.holes before).length = x.gaps
  | .list items _, before => by
      unfold Value.gaps Value.holes
      split
      · rfl
      · rw [length_holesOfAll items before, length_holesOfAll items []]
  | .vector items, before => by
      unfold Value.gaps Value.holes
      rw [length_holesOfAll items before, length_holesOfAll items []]
  | .set items, before => by
      unfold Value.gaps Value.holes
      rw [List.length_append, List.length_append, length_holesOfAll items before,
        length_holesOfAll items []]
  | .map entries, before => by
      unfold Value.gaps Value.holes
      rw [List.length_append, List.length_append, length_holesOfEntries entries before,
        length_holesOfEntries entries []]
  | .nil, _ | .bool _, _ | .int _, _ | .float _, _ | .char _, _ | .string _, _ | .symbol _, _
  | .keyword _, _ | .function _, _ | .expander _, _ | .node _, _ | .type _, _ => rfl
termination_by structural x => x

/-- Several forms have the holes of each. -/
theorem length_holesOfAll
    : ∀ xs before : List Value, (holesOfAll xs before).length = (xs.map Value.gaps).sum
  | [], _ => rfl
  | x :: rest, before => by
      rw [holesOfAll, List.length_append, length_holes x before, length_holesOfAll rest _,
        List.map_cons, List.sum_cons]
termination_by structural xs => xs

/-- Entries have the holes of their keys and values. -/
theorem length_holesOfEntries
    : ∀ (es : List (Value × Value)) (before : List Value),
        (holesOfEntries es before).length = (es.map fun e => e.1.gaps + e.2.gaps).sum
  | [], _ => rfl
  | (key, v) :: rest, before => by
      rw [holesOfEntries, List.length_append, List.length_append, length_holes key before,
        length_holes v _, length_holesOfEntries rest _, List.map_cons, List.sum_cons, Nat.add_assoc]
termination_by structural es => es

end

/-- The first filler decides, whatever follows. -/
theorem firstValue_append {fillers : List Filler} (more : List Filler) (some : 0 < fillers.length)
    : firstValue (fillers ++ more) = firstValue fillers := by
  obtain ⟨first, rest, rfl⟩ := List.exists_cons_of_length_pos some
  cases first <;> rfl

/-- So it does if it is an arrangement. -/
theorem firstOrder_append {fillers : List Filler} (more : List Filler) (some : 0 < fillers.length)
    : firstOrder (fillers ++ more) = firstOrder fillers := by
  obtain ⟨first, rest, rfl⟩ := List.exists_cons_of_length_pos some
  cases first <;> rfl

mutual

/-- A form is filled with as many fillers as it has holes, whatever follows them. Witness: by the
form.
-/
theorem filled_append
    : ∀ (x : Value) {fillers : List Filler} (more : List Filler), x.gaps ≤ fillers.length
        → x.filled (fillers ++ more) = x.filled fillers
  | .list items _, fillers, more, enough => by
      unfold Value.gaps Value.holes at enough
      unfold Value.filled
      split
      · rename_i inner known
        rw [known] at enough
        exact firstValue_append more enough
      · rename_i known
        rw [known] at enough
        rw [filledAll_append items more enough]
  | .vector items, fillers, more, enough => by
      unfold Value.filled
      rw [filledAll_append items more enough]
  | .set items, fillers, more, enough => by
      unfold Value.gaps Value.holes at enough
      rw [List.length_append, List.length_singleton] at enough
      have ordered : 0 < (fillers.drop (holesOfAll items []).length).length := by
        rw [List.length_drop]
        omega
      unfold Value.filled
      rw [filledAll_append items more (by omega), List.drop_append_of_le_length (by omega),
        firstOrder_append more ordered]
  | .map entries, fillers, more, enough => by
      unfold Value.gaps Value.holes at enough
      rw [List.length_append, List.length_singleton] at enough
      have ordered : 0 < (fillers.drop (holesOfEntries entries []).length).length := by
        rw [List.length_drop]
        omega
      unfold Value.filled
      rw [filledEntries_append entries more (by omega), List.drop_append_of_le_length (by omega),
        firstOrder_append more ordered]
  | .nil, _, _, _ | .bool _, _, _, _ | .int _, _, _, _ | .float _, _, _, _ | .char _, _, _, _
  | .string _, _, _, _ | .symbol _, _, _, _ | .keyword _, _, _, _ | .function _, _, _, _
  | .expander _, _, _, _ | .node _, _, _, _ | .type _, _, _, _ => rfl
termination_by structural x => x

/-- So are several forms. -/
theorem filledAll_append
    : ∀ (xs : List Value) {fillers : List Filler} (more : List Filler),
        (holesOfAll xs []).length ≤ fillers.length
          → filledAll xs (fillers ++ more) = filledAll xs fillers
  | [], _, _, _ => rfl
  | x :: rest, fillers, more, enough => by
      rw [length_holesOfAll, List.map_cons, List.sum_cons] at enough
      have others : (holesOfAll rest []).length ≤ (fillers.drop x.gaps).length := by
        rw [length_holesOfAll, List.length_drop]
        omega
      rw [filledAll, filledAll, filled_append x more (by omega),
        List.drop_append_of_le_length (by omega), filledAll_append rest more others]
termination_by structural xs => xs

/-- So are entries. -/
theorem filledEntries_append
    : ∀ (es : List (Value × Value)) {fillers : List Filler} (more : List Filler),
        (holesOfEntries es []).length ≤ fillers.length
          → filledEntries es (fillers ++ more) = filledEntries es fillers
  | [], _, _, _ => rfl
  | (key, v) :: rest, fillers, more, enough => by
      rw [length_holesOfEntries, List.map_cons, List.sum_cons] at enough
      dsimp only at enough
      have others
          : (holesOfEntries rest []).length ≤ ((fillers.drop key.gaps).drop v.gaps).length := by
        rw [length_holesOfEntries, List.length_drop, List.length_drop]
        omega
      have second : v.gaps ≤ (fillers.drop key.gaps).length := by
        rw [List.length_drop]
        omega
      rw [filledEntries, filledEntries, filled_append key more (by omega),
        List.drop_append_of_le_length (by omega), filled_append v more second,
        List.drop_append_of_le_length second, filledEntries_append rest more others]
termination_by structural es => es

end

/-- Forms behind others are filled behind them. Witness: induction on the first forms. -/
theorem filledAll_of_append (xs ys : List Value) (fillers : List Filler)
    : filledAll (xs ++ ys) fillers
      = filledAll xs fillers ++ filledAll ys (fillers.drop (holesOfAll xs []).length) := by
  induction xs generalizing fillers with
  | nil => rfl
  | cons x rest ih =>
      rw [List.cons_append, filledAll, filledAll, ih, List.cons_append, List.drop_drop,
        length_holesOfAll, length_holesOfAll, List.map_cons, List.sum_cons]

/-- What is at hand behind a form is what was before it, and the form as it is filled. -/
theorem holding_filled {before : List Value} {x : Value} {first : List Filler}
    (sizes : done.length = (holesOfAll before []).length)
    (sizes' : first.length = (x.holes before).length) (more : List Filler)
    : (scope.holding (filledAll before done)).holding [x.filled (first ++ more)]
      = scope.holding (filledAll (before ++ [x]) (done ++ first)) := by
  rw [length_holes] at sizes'
  have same : filledAll (before ++ [x]) (done ++ first)
      = filledAll before done ++ [x.filled (first ++ more)] := by
    rw [filledAll_of_append, filledAll_append before first sizes.ge, ← sizes, List.drop_left,
      filledAll, filledAll, filled_append x more sizes'.ge]
  rw [same, Scope.holding_append]

/-- The fillers before a form and those of the form are as many as the holes up to its end. -/
theorem length_filled {before : List Value} {x : Value} {first : List Filler}
    (sizes : done.length = (holesOfAll before []).length)
    (sizes' : first.length = (x.holes before).length)
    : (done ++ first).length = (holesOfAll (before ++ [x]) []).length := by
  rw [List.length_append, sizes, sizes', length_holes, length_holesOfAll, length_holesOfAll,
    List.map_append, List.sum_append, List.map_singleton, List.sum_singleton]

mutual

/-- If the holes of a quoted form are filled, one after the other, then substitution fills in the
same and does nothing else. Witness: induction on the form, before any more fillers that belong to
what follows it.
-/
theorem substituted_of_fills
    : ∀ (x : Value) {before : List Value} {done fillers : List Filler} {st after : Store},
        done.length = (holesOfAll before []).length
          → m.Fills c k scope done (x.holes before) fillers st after
          → ∀ more, x.KeysApart (fillers ++ more)
            → (m.substituted c k x).outcome (scope.holding (filledAll before done)) st
                = (.ok (x.filled (fillers ++ more)), after)
  | .list items source, before, done, fillers, st, after, sizes, fills, more, apart => by
      unfold Value.holes at fills
      unfold Value.KeysApart at apart
      unfold substituted Value.filled
      cases inner : unquoted? items with
      | some form =>
          rw [inner] at fills
          obtain ⟨v, rfl, one⟩ := Fills.value fills
          exact one
      | none =>
          rw [inner] at fills apart
          exact outcome_bind_of_eq_ok (substitutedAll_of_fills items sizes fills more (apart rfl))
  | .vector items, before, done, fillers, st, after, sizes, fills, more, apart =>
      outcome_bind_of_eq_ok (substitutedAll_of_fills items sizes fills more apart)
  | .set items, before, done, fillers, st, after, sizes, fills, more, apart => by
      obtain ⟨first, _, middle, rfl, sizes', inside, behind⟩ := Fills.append fills
      obtain ⟨a, rfl, drawn⟩ := Fills.order behind
      rw [length_holesOfAll, ← length_holesOfAll items []] at sizes'
      unfold Value.KeysApart at apart
      rw [List.append_assoc] at apart ⊢
      unfold substituted Value.filled
      rw [outcome_bind_of_eq_ok (substitutedAll_of_fills items sizes inside _ apart),
        length_filledAll, outcome_bind_of_eq_ok (drawn _), ← sizes', List.drop_left]
      rfl
  | .map entries, before, done, fillers, st, after, sizes, fills, more, apart => by
      obtain ⟨first, _, middle, rfl, sizes', inside, behind⟩ := Fills.append fills
      obtain ⟨a, rfl, drawn⟩ := Fills.order behind
      rw [length_holesOfEntries, ← length_holesOfEntries entries []] at sizes'
      unfold Value.KeysApart at apart
      rw [List.append_assoc] at apart ⊢
      unfold substituted Value.filled
      rw [outcome_bind_of_eq_ok (substitutedEntries_of_fills entries sizes inside _ apart.2),
        length_filledEntries, outcome_bind_of_eq_ok (drawn _), ← sizes', List.drop_left,
        Value.mapOf, Value.distinctEntries_eq_arranged apart.1]
      rfl
  | .nil, _, _, _, _, _, _, fills, _, _ | .bool _, _, _, _, _, _, _, fills, _, _
  | .int _, _, _, _, _, _, _, fills, _, _ | .float _, _, _, _, _, _, _, fills, _, _
  | .char _, _, _, _, _, _, _, fills, _, _ | .string _, _, _, _, _, _, _, fills, _, _
  | .symbol _, _, _, _, _, _, _, fills, _, _ | .keyword _, _, _, _, _, _, _, fills, _, _
  | .function _, _, _, _, _, _, _, fills, _, _ | .expander _, _, _, _, _, _, _, fills, _, _
  | .node _, _, _, _, _, _, _, fills, _, _ | .type _, _, _, _, _, _, _, fills, _, _ => by
      cases fills
      rfl
termination_by structural x => x

/-- Several forms are substituted by what their holes are filled with, by the first and the others.
-/
theorem substitutedAll_of_fills
    : ∀ (xs : List Value) {before : List Value} {done fillers : List Filler} {st after : Store},
        done.length = (holesOfAll before []).length
          → m.Fills c k scope done (holesOfAll xs before) fillers st after
          → ∀ more, AllKeysApart xs (fillers ++ more)
            → (m.substitutedAll c k xs).outcome (scope.holding (filledAll before done)) st
                = (.ok (filledAll xs (fillers ++ more)), after)
  | [], _, _, _, _, _, _, fills, _, _ => by
      cases fills
      rfl
  | x :: rest, before, done, fillers, st, after, sizes, fills, more, apart => by
      obtain ⟨first, others, middle, rfl, sizes', inside, behind⟩ := Fills.append fills
      have drops : first.length = x.gaps := sizes'.trans (length_holes x before)
      rw [AllKeysApart, List.append_assoc, ← drops, List.drop_left] at apart
      let v := x.filled (first ++ (others ++ more))
      have left : (holding [v] (m.substitutedAll c k rest)).outcome (scope.holding (filledAll before done)) middle
            = (.ok (filledAll rest (others ++ more)), after) := by
        rw [outcome_holding, holding_filled sizes sizes']
        exact substitutedAll_of_fills rest (length_filled sizes sizes') behind more apart.2
      rw [substitutedAll, filledAll, List.append_assoc, ← drops, List.drop_left,
        outcome_bind_of_eq_ok (substituted_of_fills x sizes inside _ apart.1)]
      exact outcome_bind_of_eq_ok left
termination_by structural xs => xs

/-- So are the keys and values of entries, by the first entry and the others. -/
theorem substitutedEntries_of_fills
    : ∀ (es : List (Value × Value)) {before : List Value} {done fillers : List Filler}
        {st after : Store}, done.length = (holesOfAll before []).length
          → m.Fills c k scope done (holesOfEntries es before) fillers st after
          → ∀ more, EntriesKeysApart es (fillers ++ more)
            → (m.substitutedEntries c k es).outcome (scope.holding (filledAll before done)) st
                = (.ok (filledEntries es (fillers ++ more)), after)
  | [], _, _, _, _, _, _, fills, _, _ => by
      cases fills
      rfl
  | (key, v) :: rest, before, done, fillers, st, after, sizes, fills, more, apart => by
      obtain ⟨first, others, middle, rfl, sizes', inside, behind⟩ := Fills.append fills
      obtain ⟨second, others, next, rfl, sizes'', inside', behind⟩ := Fills.append behind
      have drops : first.length = key.gaps := sizes'.trans (length_holes key before)
      have drops' : second.length = v.gaps := sizes''.trans (length_holes v _)
      have upTo := length_filled sizes sizes'
      have upTo' := length_filled upTo sizes''
      rw [List.append_assoc before] at upTo'
      rw [EntriesKeysApart, List.append_assoc, ← drops, List.drop_left, List.append_assoc, ← drops',
        List.drop_left] at apart
      let key' := key.filled (first ++ (second ++ (others ++ more)))
      let v' := v.filled (second ++ (others ++ more))
      have valued : (holding [key'] (m.substituted c k v)).outcome
          (scope.holding (filledAll before done)) middle = (.ok v', next) := by
        rw [outcome_holding, holding_filled sizes sizes']
        exact substituted_of_fills v upTo inside' _ apart.2.1
      have left : (holding [key', v'] (m.substitutedEntries c k rest)).outcome
          (scope.holding (filledAll before done)) next
            = (.ok (filledEntries rest (others ++ more)), after) := by
        rw [outcome_holding, ← List.singleton_append, Scope.holding_append,
          holding_filled sizes sizes', holding_filled upTo sizes'', List.append_assoc before]
        exact substitutedEntries_of_fills rest upTo' behind more apart.2.2
      rw [substitutedEntries, filledEntries, List.append_assoc, ← drops, List.drop_left,
        List.append_assoc, ← drops', List.drop_left,
        outcome_bind_of_eq_ok (substituted_of_fills key sizes inside _ apart.1),
        outcome_bind_of_eq_ok valued]
      exact outcome_bind_of_eq_ok left
termination_by structural es => es

end

end Filling

-----------------------------------------------------------------------------------------
-- Quoted forms
-----------------------------------------------------------------------------------------

/-- A quoting form expands, to a node that quotes what substitution makes of the form. -/
theorem expands_quote {c : ContextId} {scope : Scope} {limit level : Nat} {q : Symbol}
    {x filled : Value} {st looked after : Store} (source : Option Location)
    (inside : scope.entering c = scope) (hand : Among (scope.held · = true) x.contexts)
    (bound : ((ofLevels level).expanderBound? c q).outcome scope st
      = (.ok (some (.form .quote)), looked))
    (substitutes : ∀ᶠ higher in atTop,
      ((ofLevels higher).substituted c (.initial limit) x).outcome scope looked
        = (.ok filled, after))
    : ∃ node, node.shape = .quote filled false
        ∧ Expands c scope limit (.list [.symbol q, x] source) node st after := by
  let form := Value.list [.symbol q, x] source
  let quoted := (Node.of (.quote filled false)).locatedAt source
  have hand' : Among (scope.held · = true) form.contexts := by simpa [form] using hand
  have special : ∀ᶠ higher in atTop,
      ((ofLevels higher).expand (.form .quote) c form (.initial limit)).outcome scope looked
        = (.ok quoted, after) := by
    refine eventually_succ (fun higher came => ?_) substitutes
    change (inContext c (holding [.expander (.form .quote), form, .expander (.initial limit)]
      ((ofLevels higher).expandSpecial .quote c form _))).outcome scope looked = _
    rw [outcome_inContext, inside, outcome_holding, Scope.holding_form hand' rfl rfl]
    dsimp only [form, expandSpecial, expandSpecialList, expandQuote]
    exact outcome_bind_of_eq_ok (outcome_bind_of_eq_ok came)
  refine ⟨quoted.including q, ?_, ?_⟩
  · rw [Node.shape_including, Node.shape_locatedAt]
    rfl
  · have both := (eventually_bound bound).and special
    refine .of_initial inside hand' (both.mono fun higher both => ?_)
    obtain ⟨same, came⟩ := both
    dsimp only [form, expandInitial, expandList]
    rw [outcome_bind_of_eq_ok same]
    exact outcome_bind_of_eq_ok came

/-- The evaluation of a quoted form, optimized or not, gives the form. -/
theorem evaluates_quote {n : Node} {form : Value} {isSyntax : Bool}
    (shape : n.shape = .quote form isSyntax) (config : Config) (a : Arrangement) (c : ContextId)
    (scope : Scope) (st : Store)
    : ∀ᶠ higher in atTop,
        ((ofLevels higher).eval (config.prepared a n) c []).outcome scope st
          = (.ok (form, c), st) := by
  refine eventually_succ (P := fun _ => True) (fun higher _ => ?_) (.of_forall fun _ => trivial)
  change ((ofLevels higher).evalNode _ c []).outcome ((scope.entering c).holding _) st = _
  unfold evalNode Config.prepared
  cases config.optimizes with
  | true =>
      rw [if_pos rfl, Node.shape_optimized, shape]
      rfl
  | false =>
      rw [if_neg Bool.false_ne_true, shape]
      rfl

/-- Quoting returns the form with exactly its unquoted forms filled in. A literal form comes back as
it is, its places included, but for the order in which its tables hand their items out, since these
are made anew. In general, if the outermost unquoted forms have values when they are evaluated one
after the other, without lexical bindings, and no two keys of one map become equal, then the form
comes back with these values in their places, into which nothing is filled in turn, and with its
tables arranged like the ones that are made on the way. Either way the context stays the same,
whether forms are optimized or not. The form is at hand all the time, and what was filled in is too.
-/
theorem quote_fills_unquotes {config : Config} {c : ContextId} {scope : Scope} {level : Nat}
    {q : Symbol} {st looked : Store} (x : Value) (source : Option Location)
    (quotes : ((ofLevels level).expanderBound? c q).outcome
          ((Scope.entering { scope with callLimit := config.callLimit } c).holding [x]) st
        = (.ok (some (.form .quote)), looked))
    : let form := Value.list [.symbol q, x] source
      let inner := (Scope.entering { scope with callLimit := config.callLimit } c).holding [x]
      (x.Proper → x.isLiteral → ∃ v, x.Reorders v ∧ ∀ᶠ higher in atTop,
          ((ofLevels higher).runForm config form c).outcome scope st
            = (.ok (v, c), config.afterOptimizing (looked.afterTables x.tables)))
        ∧ ∀ steps fillers after,
            (ofLevels steps).Fills c (.initial config.expansionLimit) inner [] (x.holes []) fillers
                looked after
              → x.KeysApart fillers → ∀ᶠ higher in atTop,
                ((ofLevels higher).runForm config form c).outcome scope st
                  = (.ok (x.filled fillers, c), config.afterOptimizing after) := by
  intro form inner
  let running : Scope := { scope with callLimit := config.callLimit }
  have formHeld : (running.entering c).holding [form] = inner :=
    Scope.holding_congr fun _ => by simp [form, contextsOfAll]
  have inside : inner.entering c = inner := Scope.entering_of_held (by simp [inner])
  have hand : Among (inner.held · = true) x.contexts :=
    fun _ member => (Scope.held_holding ..).mpr (.inl (by simpa [contextsOfAll] using member))
  have runs {filled : Value} {after : Store}
      (substitutes : ∀ᶠ higher in atTop,
        ((ofLevels higher).substituted c (.initial config.expansionLimit) x).outcome inner looked
          = (.ok filled, after))
      : ∀ᶠ higher in atTop, ((ofLevels higher).runForm config form c).outcome scope st
          = (.ok (filled, c), config.afterOptimizing after) := by
    obtain ⟨n, shape, expanded⟩ := expands_quote source inside hand quotes substitutes
    obtain ⟨a, drawn⟩ := outcome_arrangementIf after config.optimizes
    have evaluated := evaluates_quote shape config a c (running.holding [form])
      (config.afterOptimizing after)
    refine (expanded.and evaluated).mono fun higher both => ?_
    have top : ((ofLevels higher).expandTop config form c).outcome running st
        = (.ok (config.prepared a n), config.afterOptimizing after) := by
      have expanded : ((ofLevels higher).expand (.initial config.expansionLimit) c form
          (.initial config.expansionLimit)).outcome running st = (.ok n, after) := by
        rw [outcome_expand_initial, formHeld]
        exact both.1
      unfold expandTop
      rw [outcome_bind_of_eq_ok expanded, outcome_bind_of_eq_ok (drawn running)]
      rfl
    exact (outcome_bind_of_eq_ok top).trans both.2
  constructor
  · intro proper literal
    obtain ⟨v, same, came⟩ := substituted_of_literal x proper literal looked
    exact ⟨v, same, runs (.of_forall fun higher => came _ c _ inner)⟩
  · intro steps fillers after fills apart
    have almost : ∀ᶠ higher in atTop,
        (ofLevels higher).Fills c (.initial config.expansionLimit) inner [] (x.holes []) fillers
          looked after :=
      eventually_of_ok
        (x := fun m => m.fillAll c (.initial config.expansionLimit) [] (x.holes [])) inferInstance
        fills
    refine runs (almost.mono fun higher came => ?_)
    have substituted := substituted_of_fills x rfl came [] (by rwa [List.append_nil])
    rwa [List.append_nil] at substituted

/-- A list with a map, in which two symbols are unquoted, and the value of one of them is a list
that unquotes the other; and a form with a set and with a list of the symbol unquote alone. New
tables put every item before the others.
-/
theorem template_filled
    : let quote := Symbol.bare "quote"
      let name := Symbol.bare "name"
      let template := Symbol.bare "template"
      let unquoting (s : Symbol) := Value.listOf [.symbol SpecialForm.unquote.symbol, .symbol s]
      let x := Value.list
        [unquoting template, .map [(unquoting name, .nil), (.int 1, unquoting name)]]
        (some ⟨"here", 1, 8⟩)
      let literal := Value.vector
        [.list [.symbol SpecialForm.unquote.symbol] (some ⟨"here", 2, 9⟩), .set [.int 1, .nil]]
      let first : Arrangement := fun _ => 0
      let builtin := (Store.start .standard fun _ => first).define Store.first coreSpace quote
        (.constant (.expander (.form .quote))) []
      let named := builtin.2.define builtin.1 coreSpace name (.constant (.int 5)) []
      let bound := named.2.define named.1 coreSpace template (.constant (unquoting name)) []
      let config := Config.standard
      let scope := Scope.outermost config.callLimit
      let inner := (scope.entering bound.1).holding [x]
      let found := ((ofLevels 4).expanderBound? bound.1 quote).outcome inner bound.2
      let filled := ((ofLevels 4).fillAll bound.1 (.initial config.expansionLimit) []
        (x.holes [])).outcome inner found.2
      let fillers := [.value (unquoting name), .value (.int 5), .value (.int 5), .order first]
      found = (.ok (some (.form .quote)), found.2)
        ∧ filled = (.ok fillers, filled.2)
        ∧ x.KeysApart fillers
        ∧ (∀ᶠ higher in atTop,
            ((ofLevels higher).runForm config (.listOf [.symbol quote, x]) bound.1).outcome scope
                bound.2
              = (.ok (.list [unquoting name, .map [(.int 1, .int 5), (.int 5, .nil)]]
                  (some ⟨"here", 1, 8⟩), bound.1), config.afterOptimizing filled.2))
        ∧ literal.Proper ∧ literal.isLiteral
        ∧ ∃ v, literal.Reorders v ∧ ∀ᶠ higher in atTop,
            ((ofLevels higher).runForm config (.listOf [.symbol quote, literal]) bound.1).outcome
                scope bound.2
              = (.ok (v, bound.1), config.afterOptimizing (found.2.afterTables 1)) := by
  intro quote name template unquoting x literal first builtin named bound config scope inner found
    filled fillers
  have quotes : found = (.ok (some (.form .quote)), found.2) := by
    dsimp only [found, inner, scope, config, bound, named, builtin, unquoting, template, name, quote]
    rfl
  have puts : filled = (.ok fillers, filled.2) := by
    dsimp only [filled, fillers, x, found, inner, scope, config, bound, named, builtin, first,
      unquoting, template, name, quote]
    rfl
  have apart : x.KeysApart fillers := by
    refine fun _ => ⟨fun never => absurd never (by decide), ⟨by decide, ?_⟩, trivial⟩
    exact ⟨fun never => absurd never (by decide), trivial, trivial,
      fun never => absurd never (by decide), trivial⟩
  have fills := @quote_fills_unquotes config bound.1 scope 4 quote bound.2 found.2 x none quotes
  have keeps :=
    @quote_fills_unquotes config bound.1 scope 4 quote bound.2 found.2 literal none quotes
  have proper : literal.Proper :=
    ⟨⟨trivial, trivial⟩, ⟨by decide, trivial, trivial, trivial⟩, trivial⟩
  have plain : literal.isLiteral := by decide
  exact ⟨quotes, puts, apart, fills.2 4 _ _ puts apart, proper, plain, keeps.1 proper plain⟩

end Machine

end IncrementalLisp
