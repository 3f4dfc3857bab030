import IncrementalLisp.Value.Collection
import Mathlib.Data.List.Forall2

/-! Equality of values is reflexive and transitive, so a set whose items were made distinct once
stays as it is when they are made distinct again, and so do the entries of a map.
-/

namespace IncrementalLisp

namespace Value

/-- Items are within others if each is equal to one of these. Witness: induction on the items. -/
theorem itemsWithin_iff {vs ws : List Value}
    : itemsWithin vs ws ↔ ∀ v ∈ vs, ∃ w ∈ ws, equal v w := by
  induction vs with
  | nil => simp [itemsWithin]
  | cons v rest ih => rw [itemsWithin, Bool.and_eq_true, ih, List.any_eq_true, List.forall_mem_cons]

/-- Entries are within others if each has an equal key and value among these. Witness: induction on
the entries.
-/
theorem entriesWithin_iff {es fs : List (Value × Value)}
    : entriesWithin es fs ↔ ∀ e ∈ es, ∃ f ∈ fs, equal e.1 f.1 ∧ equal e.2 f.2 := by
  induction es with
  | nil => simp [entriesWithin]
  | cons e rest ih =>
      rw [entriesWithin, Bool.and_eq_true, ih, List.any_eq_true, List.forall_mem_cons]
      simp only [Bool.and_eq_true]

end Value

/-- A function is the same as itself. -/
theorem Function.same_refl (f : Function)
    : f.same f := by
  cases f <;> simp [Function.same]

/-- So is an expander. -/
theorem Expander.same_refl (e : Expander)
    : e.same e := by
  cases e <;> simp [Expander.same]

namespace Value

-----------------------------------------------------------------------------------------
-- Reflexivity
-----------------------------------------------------------------------------------------

mutual

/-- Every value equals itself. Witness: induction on the value. -/
theorem equal_refl
    : ∀ v : Value, equal v v
  | .list items _ => equalAll_refl items
  | .vector items => equalAll_refl items
  | .map entries => by
      rw [equal, Bool.and_eq_true, beq_iff_eq]
      exact ⟨rfl, entriesWithin_of_subset entries fun _ member => member⟩
  | .set items => by
      rw [equal, Bool.and_eq_true, beq_iff_eq]
      exact ⟨rfl, itemsWithin_of_subset items fun _ member => member⟩
  | .function f => f.same_refl
  | .expander e => e.same_refl
  | .node _ => beq_self_eq_true _
  | .nil => rfl
  | .bool _ | .int _ | .float _ | .char _ | .string _ | .symbol _ | .keyword _ | .type _ =>
      beq_self_eq_true _
termination_by structural v => v

/-- Several values are equal to themselves, by the first and the others. -/
theorem equalAll_refl
    : ∀ vs : List Value, equalAll vs vs
  | [] => rfl
  | v :: rest => by
      rw [equalAll, Bool.and_eq_true]
      exact ⟨equal_refl v, equalAll_refl rest⟩
termination_by structural vs => vs

/-- Items are within those that they are among, by the first and the others. -/
theorem itemsWithin_of_subset
    : ∀ (vs : List Value) {ws : List Value}, vs ⊆ ws → itemsWithin vs ws
  | [], _, _ => rfl
  | v :: rest, _, subset => by
      obtain ⟨member, others⟩ := List.cons_subset.mp subset
      rw [itemsWithin, Bool.and_eq_true, List.any_eq_true]
      exact ⟨⟨v, member, equal_refl v⟩, itemsWithin_of_subset rest others⟩
termination_by structural vs => vs

/-- So are entries. -/
theorem entriesWithin_of_subset
    : ∀ (es : List (Value × Value)) {fs : List (Value × Value)}, es ⊆ fs → entriesWithin es fs
  | [], _, _ => rfl
  | (k, v) :: rest, _, subset => by
      obtain ⟨member, others⟩ := List.cons_subset.mp subset
      rw [entriesWithin, Bool.and_eq_true, List.any_eq_true]
      refine ⟨⟨(k, v), member, ?_⟩, entriesWithin_of_subset rest others⟩
      rw [Bool.and_eq_true]
      exact ⟨equal_refl k, equal_refl v⟩
termination_by structural es => es

end

end Value

-----------------------------------------------------------------------------------------
-- Transitivity
-----------------------------------------------------------------------------------------

/-- A function is the same as what the same function is the same as. -/
theorem Function.same_trans {f g h : Function} (first : f.same g) (second : g.same h)
    : f.same h := by
  cases f <;> cases g <;> cases h <;> simp_all [Function.same]

/-- So is an expander. -/
theorem Expander.same_trans {d e f : Expander} (first : d.same e) (second : e.same f)
    : d.same f := by
  cases d <;> cases e <;> cases f <;> simp_all [Expander.same]

namespace Value

mutual

/-- Equality is transitive. Witness: induction on the first value. -/
theorem equal_trans
    : ∀ {u v w : Value}, equal u v → equal v w → equal u w
  | .list _ _, v, w, first, second => by
      cases v with
      | list | vector =>
          cases w with
          | list | vector => exact equalAll_trans first second
          | _ => cases second
      | _ => cases first
  | .vector _, v, w, first, second => by
      cases v with
      | list | vector =>
          cases w with
          | list | vector => exact equalAll_trans first second
          | _ => cases second
      | _ => cases first
  | .map _, v, w, first, second => by
      cases v with
      | map =>
          cases w with
          | map =>
              rw [equal, Bool.and_eq_true, beq_iff_eq] at first second ⊢
              exact ⟨first.1.trans second.1, entriesWithin_trans first.2 second.2⟩
          | _ => cases second
      | _ => cases first
  | .set _, v, w, first, second => by
      cases v with
      | set =>
          cases w with
          | set =>
              rw [equal, Bool.and_eq_true, beq_iff_eq] at first second ⊢
              exact ⟨first.1.trans second.1, itemsWithin_trans first.2 second.2⟩
          | _ => cases second
      | _ => cases first
  | .function _, v, w, first, second => by
      cases v with
      | function =>
          cases w with
          | function => exact Function.same_trans first second
          | _ => cases second
      | _ => cases first
  | .expander _, v, w, first, second => by
      cases v with
      | expander =>
          cases w with
          | expander => exact Expander.same_trans first second
          | _ => cases second
      | _ => cases first
  | .node _, v, w, first, second => by
      cases v with
      | node =>
          cases w with
          | node =>
              rw [equal, Node.same, beq_iff_eq] at first second ⊢
              exact first.trans second
          | _ => cases second
      | _ => cases first
  | .nil, v, w, first, second => by
      cases v with
      | nil => exact second
      | _ => cases first
  | .bool _, v, w, first, second | .int _, v, w, first, second | .float _, v, w, first, second
  | .char _, v, w, first, second | .string _, v, w, first, second | .symbol _, v, w, first, second
  | .keyword _, v, w, first, second | .type _, v, w, first, second => by
      -- Equal values without parts are the same.
      cases v <;> first
        | cases first
        | exact eq_of_beq first ▸ second
termination_by structural u => u

/-- Equality of several values goes on from one to the next, by the first and the others. -/
theorem equalAll_trans
    : ∀ {us vs ws : List Value}, equalAll us vs → equalAll vs ws → equalAll us ws
  | [], vs, ws, first, second => by
      cases vs with
      | nil => exact second
      | cons => cases first
  | _ :: _, vs, ws, first, second => by
      cases vs with
      | nil => cases first
      | cons v vs =>
          cases ws with
          | nil => cases second
          | cons w ws =>
              rw [equalAll, Bool.and_eq_true] at first second ⊢
              exact ⟨equal_trans first.1 second.1, equalAll_trans first.2 second.2⟩
termination_by structural us => us

/-- So does that of items within others. -/
theorem itemsWithin_trans
    : ∀ {us vs ws : List Value}, itemsWithin us vs → itemsWithin vs ws → itemsWithin us ws
  | [], _, _, _, _ => rfl
  | _ :: _, _, _, first, second => by
      rw [itemsWithin, Bool.and_eq_true, List.any_eq_true] at first ⊢
      obtain ⟨⟨v, member, same⟩, others⟩ := first
      obtain ⟨w, found, same'⟩ := itemsWithin_iff.mp second v member
      exact ⟨⟨w, found, equal_trans same same'⟩, itemsWithin_trans others second⟩
termination_by structural us => us

/-- So does that of entries within others. -/
theorem entriesWithin_trans
    : ∀ {es fs gs : List (Value × Value)},
        entriesWithin es fs → entriesWithin fs gs → entriesWithin es gs
  | [], _, _, _, _ => rfl
  | (_, _) :: _, _, _, first, second => by
      rw [entriesWithin, Bool.and_eq_true, List.any_eq_true] at first ⊢
      obtain ⟨⟨f, member, same⟩, others⟩ := first
      obtain ⟨g, found, key, value⟩ := entriesWithin_iff.mp second f member
      rw [Bool.and_eq_true] at same
      refine ⟨⟨g, found, ?_⟩, entriesWithin_trans others second⟩
      rw [Bool.and_eq_true]
      exact ⟨equal_trans same.1 key, equal_trans same.2 value⟩
termination_by structural es => es

end

-----------------------------------------------------------------------------------------
-- Distinct items
-----------------------------------------------------------------------------------------

section Upsert

variable {α : Type} {same : α → α → Bool} {a : Arrangement}

/-- (Differ same xs) says that no item of a list is the same as a later one. -/
abbrev Differ (same : α → α → Bool) (xs : List α)
    : Prop :=
  xs.Pairwise fun x y => ¬same x y

/-- An item takes the place of the first that is the same, if there is one. Witness: induction on
the items.
-/
theorem replaced?_cases (same : α → α → Bool) (x : α) (ys : List α)
    : (replaced? same x ys = none ∧ ∀ y ∈ ys, ¬same y x)
      ∨ ∃ front y back, ys = front ++ y :: back ∧ same y x ∧ (∀ z ∈ front, ¬same z x)
          ∧ replaced? same x ys = some (front ++ x :: back) := by
  induction ys with
  | nil => exact .inl ⟨rfl, nofun⟩
  | cons y ys ih =>
      rw [replaced?]
      split
      case isTrue again => exact .inr ⟨[], y, ys, rfl, again, nofun, rfl⟩
      case isFalse other =>
        rcases ih with ⟨new, differ⟩ | ⟨front, z, back, rfl, again, earlier, replaced⟩
        · rw [new]
          exact .inl ⟨rfl, List.forall_mem_cons.mpr ⟨other, differ⟩⟩
        · rw [replaced]
          exact .inr
            ⟨y :: front, z, back, rfl, again, List.forall_mem_cons.mpr ⟨other, earlier⟩, rfl⟩

/-- An item is put between others: in the place of the first that is the same, or of none if there
is no such one.
-/
theorem upsert_cases (a : Arrangement) (same : α → α → Bool) (x : α) (ys : List α)
    : ∃ front back, upsert a same x ys = front ++ x :: back ∧ (∀ z ∈ front, ¬same z x)
        ∧ ((∃ y, ys = front ++ y :: back ∧ same y x)
          ∨ ys = front ++ back ∧ back = ys.drop (a ys.length) ∧ ∀ z ∈ back, ¬same z x) := by
  rcases replaced?_cases same x ys with
    ⟨new, differ⟩ | ⟨front, y, back, rfl, again, earlier, replaced⟩
  · refine ⟨ys.take (a ys.length), ys.drop (a ys.length), by rw [upsert, new]; rfl, ?_, .inr ?_⟩
    · exact fun z member => differ z (List.mem_of_mem_take member)
    · exact ⟨(List.take_append_drop _ ys).symm, rfl,
        fun z member => differ z (List.mem_of_mem_drop member)⟩
  · exact ⟨front, back, by rw [upsert, replaced]; rfl, earlier, .inl ⟨y, rfl, again⟩⟩

/-- After something was put into a table, it is what is in it besides what was. -/
theorem mem_upsert {x z : α} {ys : List α} (member : z ∈ upsert a same x ys)
    : z = x ∨ z ∈ ys := by
  obtain ⟨front, back, put, -, origin⟩ := upsert_cases a same x ys
  rw [put, List.mem_append, List.mem_cons] at member
  rcases origin with ⟨y, rfl, -⟩ | ⟨rfl, -⟩ <;> grind

/-- So it is for several things. Witness: induction on them. -/
theorem mem_foldl_upsert {z : α} {done items : List α}
    (member : z ∈ items.foldl (fun all x => upsert a same x all) done)
    : z ∈ done ∨ z ∈ items := by
  induction items generalizing done with
  | nil => exact .inl member
  | cons x rest ih =>
      rcases ih member with early | late
      · rcases mem_upsert early with rfl | early
        · exact .inr List.mem_cons_self
        · exact .inl early
      · exact .inr (List.mem_cons_of_mem _ late)

/-- A new item is put where the arrangement says. -/
theorem upsert_of_new {x : α} {ys : List α} (new : ∀ y ∈ ys, ¬same y x)
    : upsert a same x ys = ys.take (a ys.length) ++ x :: ys.drop (a ys.length) := by
  rcases replaced?_cases same x ys with ⟨none, -⟩ | ⟨front, y, back, rfl, again, -⟩
  · rw [upsert, none]
    rfl
  · exact absurd again (new y (List.mem_append_right _ List.mem_cons_self))

/-- Items that differ are put in as they are, if each goes to the end. -/
theorem foldl_upsert_of_differ {done items : List α} (differ : Differ same (done ++ items))
    : items.foldl (fun all x => upsert .last same x all) done = done ++ items := by
  induction items generalizing done with
  | nil => rw [List.foldl_nil, List.append_nil]
  | cons x rest ih =>
      have new := (List.pairwise_append.mp differ).2.2
      have put : upsert .last same x done = done ++ [x] := by
        rw [upsert_of_new fun y member => new y member x List.mem_cons_self]
        simp [Arrangement.last]
      rw [List.foldl_cons, put, ih]
      · rw [List.append_assoc, List.singleton_append]
      · rwa [List.append_assoc, List.singleton_append]

/-- Items still differ after one more has been put in, if sameness is transitive, and symmetric
between that one and those before which it is put.
-/
theorem differ_upsert (trans : ∀ x y z, same x y → same y z → same x z) {x : α} {ys : List α}
    (symm : ∀ y ∈ ys.drop (a ys.length), same x y → same y x) (differ : Differ same ys)
    : Differ same (upsert a same x ys) := by
  obtain ⟨front, back, put, earlier, origin⟩ := upsert_cases a same x ys
  have apart (z : α) (late : z ∈ back) : ¬same x z := by
    rcases origin with ⟨y, rfl, again⟩ | ⟨-, behind, later⟩
    · have first := (List.pairwise_cons.mp (List.pairwise_append.mp differ).2.1).1
      exact fun repeated => first z late (trans y x z again repeated)
    · exact fun repeated => later z late (symm z (behind ▸ late) repeated)
  have others : Differ same (front ++ back) := by
    rcases origin with ⟨y, rfl, -⟩ | ⟨rfl, -⟩
    · exact differ.sublist ((List.sublist_cons_self y back).append_left front)
    · exact differ
  obtain ⟨before, after, between⟩ := List.pairwise_append.mp others
  rw [put, Differ, List.pairwise_append, List.pairwise_cons]
  exact ⟨before, ⟨apart, after⟩, fun z early => List.forall_mem_cons.mpr
    ⟨earlier z early, between z early⟩⟩

/-- Items put in one after the other differ, if sameness is transitive, and symmetric between them.
-/
theorem differ_foldl_upsert (trans : ∀ x y z, same x y → same y z → same x z)
    {done items : List α}
    (symm : ∀ x ∈ done ++ items, ∀ y ∈ done ++ items, same x y → same y x)
    (differ : Differ same done)
    : Differ same (items.foldl (fun all x => upsert a same x all) done) := by
  induction items generalizing done with
  | nil => exact differ
  | cons x rest ih =>
      have inner {z : α} (member : z ∈ upsert a same x done ++ rest) : z ∈ done ++ x :: rest := by
        rcases List.mem_append.mp member with early | late
        · rcases mem_upsert early with rfl | early <;> simp [*]
        · simp [late]
      refine ih (fun y first z second => symm y (inner first) z (inner second)) ?_
      exact differ_upsert trans
        (fun y member => symm x (by simp) y (by simp [List.mem_of_mem_drop member])) differ

/-- Items put in at the end differ, if sameness is transitive. -/
theorem differ_foldl_upsert_last (trans : ∀ x y z, same x y → same y z → same x z)
    {done items : List α} (differ : Differ same done)
    : Differ same (items.foldl (fun all x => upsert .last same x all) done) := by
  induction items generalizing done with
  | nil => exact differ
  | cons x rest ih => exact ih (differ_upsert trans (by simp [Arrangement.last]) differ)

/-- What holds of all items after one has been put in held of all before and holds of it, if it
holds of whatever is the same as an item of which it holds.
-/
theorem forall_mem_of_upsert {P : α → Prop} (taken : ∀ x y, same y x → P x → P y) {x : α}
    {ys : List α} (all : ∀ z ∈ upsert a same x ys, P z)
    : P x ∧ ∀ y ∈ ys, P y := by
  obtain ⟨front, back, put, -, origin⟩ := upsert_cases a same x ys
  simp only [put, List.mem_append, List.mem_cons] at all
  have item : P x := all x (.inr (.inl rfl))
  refine ⟨item, ?_⟩
  rcases origin with ⟨y, rfl, again⟩ | ⟨rfl, -⟩
  · intro z member
    rcases List.mem_append.mp member with early | late
    · exact all z (.inl early)
    · rcases List.mem_cons.mp late with rfl | late
      · exact taken x z again item
      · exact all z (.inr (.inr late))
  · intro z member
    rcases List.mem_append.mp member with early | late
    · exact all z (.inl early)
    · exact all z (.inr (.inr late))

/-- What all in a table have that is kept by what is the same, all that was put in has. Witness:
induction on what is put in.
-/
theorem forall_mem_of_foldl_upsert {P : α → Prop} (taken : ∀ x y, same y x → P x → P y)
    {done items : List α}
    (all : ∀ z ∈ items.foldl (fun all x => upsert a same x all) done, P z)
    : (∀ y ∈ done, P y) ∧ ∀ x ∈ items, P x := by
  induction items generalizing done with
  | nil => exact ⟨all, nofun⟩
  | cons x rest ih =>
      obtain ⟨inner, later⟩ := ih all
      obtain ⟨item, before⟩ := forall_mem_of_upsert taken inner
      exact ⟨before, List.forall_mem_cons.mpr ⟨item, later⟩⟩

variable {β : Type} {same' : β → β → Bool} {f : α → β}
  (kept : ∀ x y, same' (f x) (f y) = same x y)

include kept in
/-- A map that keeps the test goes through a replacement. Witness: induction on the table. -/
theorem replaced?_map (x : α) (ys : List α)
    : replaced? same' (f x) (ys.map f) = (replaced? same x ys).map (List.map f) := by
  induction ys with
  | nil => rfl
  | cons y ys ih =>
      simp only [List.map_cons, replaced?, kept, ih]
      split
      · rfl
      · simp [Option.map_map, Function.comp_def]

include kept in
/-- Items that are changed into ones which are the same only if they were are put in alike. -/
theorem upsert_map (x : α) (ys : List α)
    : upsert a same' (f x) (ys.map f) = (upsert a same x ys).map f := by
  unfold upsert
  rw [replaced?_map kept]
  cases replaced? same x ys <;> simp

include kept in
/-- A map that keeps the test goes through filling a table. Witness: induction on the items. -/
theorem foldl_upsert_map (done items : List α)
    : (items.map f).foldl (fun all x => upsert a same' x all) (done.map f)
      = (items.foldl (fun all x => upsert a same x all) done).map f := by
  induction items generalizing done with
  | nil => rfl
  | cons x rest ih =>
      simp only [List.map_cons, List.foldl_cons, upsert_map kept]
      exact ih _

/-- Related lists have an item replaced at the same place, if the same items of both are replaced.
-/
theorem replaced?_rel {S R : α → β → Prop} {x : α} {x' : β}
    (alike : ∀ y y', S y y' → same y x = same' y' x') (wider : ∀ y y', S y y' → R y y')
    (related : R x x') {ys : List α} {ys' : List β} (each : List.Forall₂ S ys ys')
    : Option.Rel (List.Forall₂ R) (replaced? same x ys) (replaced? same' x' ys') := by
  induction each with
  | nil => exact .none
  | @cons y y' ys ys' first others ih =>
      rw [replaced?, replaced?, alike y y' first]
      split
      · exact .some (.cons related (others.imp wider))
      · generalize replaced? same x ys = u, replaced? same' x' ys' = u' at ih ⊢
        cases ih with
        | none => exact .none
        | some rest => exact .some (.cons (wider y y' first) rest)

/-- Related items are put into related lists alike. -/
theorem upsert_rel {S R : α → β → Prop} {x : α} {x' : β}
    (alike : ∀ y y', S y y' → same y x = same' y' x') (wider : ∀ y y', S y y' → R y y')
    (related : R x x') {ys : List α} {ys' : List β} (each : List.Forall₂ S ys ys')
    : List.Forall₂ R (upsert a same x ys) (upsert a same' x' ys') := by
  have both := replaced?_rel alike wider related each
  unfold upsert
  generalize replaced? same x ys = u, replaced? same' x' ys' = u' at both
  cases both with
  | some rest => exact rest
  | none =>
      have kept := each.imp wider
      rw [each.length_eq]
      exact List.rel_append (List.forall₂_take _ kept) (.cons related (List.forall₂_drop _ kept))

/-- Related items are put in alike, one after the other. -/
theorem foldl_upsert_rel {S R : α → β → Prop}
    (alike : ∀ x x', S x x' → ∀ y y', R y y' → same y x = same' y' x')
    (wider : ∀ x x', S x x' → R x x') {items : List α} {items' : List β}
    (each : List.Forall₂ S items items') {done : List α} {done' : List β}
    (before : List.Forall₂ R done done')
    : List.Forall₂ R (items.foldl (fun all x => upsert a same x all) done)
        (items'.foldl (fun all x => upsert a same' x all) done') := by
  induction each generalizing done done' with
  | nil => exact before
  | @cons x x' _ _ first _ ih =>
      exact ih (upsert_rel (alike x x' first) (fun _ _ => id) (wider x x' first) before)

end Upsert

variable {a : Arrangement}

/-- Distinct items are among the items. -/
theorem mem_distinct {x : Value} {items : List Value} (member : x ∈ distinct a items)
    : x ∈ items :=
  (mem_foldl_upsert member).resolve_left List.not_mem_nil

/-- Distinct entries are among the entries. -/
theorem mem_distinctEntries {e : Value × Value} {entries : List (Value × Value)}
    (member : e ∈ distinctEntries a entries)
    : e ∈ entries :=
  (mem_foldl_upsert member).resolve_left List.not_mem_nil

section Map

variable {f : Value → Value} (kept : ∀ v w, (f v == f w) = (v == w))

include kept in
/-- A map that keeps equality goes through the insertion of an item. -/
theorem insertItem_map (x : Value) (items : List Value)
    : insertItem a (f x) (items.map f) = (insertItem a x items).map f :=
  upsert_map kept x items

include kept in
/-- So it does through the insertion of an entry. -/
theorem insertEntry_map (key value : Value) (entries : List (Value × Value))
    : insertEntry a (f key) (f value) (entries.map (Prod.map f f))
      = (insertEntry a key value entries).map (Prod.map f f) :=
  upsert_map (f := Prod.map f f) (fun e e' => kept e.1 e'.1) (key, value) entries

include kept in
/-- Items that are changed into ones which are equal to each other only if they were are still
distinct.
-/
theorem distinct_map (items : List Value)
    : distinct a (items.map f) = (distinct a items).map f :=
  foldl_upsert_map kept [] items

include kept in
/-- A map that keeps equality goes through making entries distinct. -/
theorem distinctEntries_map (entries : List (Value × Value))
    : distinctEntries a (entries.map (Prod.map f f))
      = (distinctEntries a entries).map (Prod.map f f) :=
  foldl_upsert_map (fun e e' => kept e.1 e'.1) [] entries

/-- A map goes through pairing, by the recursion of pairs. -/
theorem pairs_map {α β : Type} (g : α → β) (items : List α)
    : pairs (items.map g) = (pairs items).map (Prod.map g g) := by
  induction items using pairs.induct with
  | case1 v w rest ih => simp [pairs, ih]
  | case2 items short =>
      rcases items with _ | ⟨v, _ | ⟨w, rest⟩⟩
      · rfl
      · rfl
      · exact absurd rfl (short v w rest)

end Map

end Value

end IncrementalLisp
