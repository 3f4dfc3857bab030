import IncrementalLisp.Proofs.Value.Equality
import IncrementalLisp.Value.Hash
import Mathlib.Data.List.Perm.Subperm

/-! Values as keys. Equality is an equivalence of proper values, those whose sets hold no two equal
items and whose maps hold no two equal keys; and equal values have the same words to be hashed. The
items of two equal sets correspond one to one, which gives both: the other direction of the
equality, and the same sum of hashes in whatever order they are added up.
-/

namespace IncrementalLisp

-----------------------------------------------------------------------------------------
-- Correspondence
-----------------------------------------------------------------------------------------

section Correspondence

variable {α β : Type} {R : α → β → Prop}

/-- What is in the first list corresponds to something in the second, at the same position. -/
theorem exists_of_mem_left {xs : List α} {ys : List β} (each : List.Forall₂ R xs ys) {x : α}
    (member : x ∈ xs)
    : ∃ y ∈ ys, R x y := by
  obtain ⟨i, inside, rfl⟩ := List.getElem_of_mem member
  have before : i < ys.length := each.length_eq ▸ inside
  exact ⟨ys[i], List.getElem_mem before, each.get inside before⟩

/-- What is in the second list corresponds to something in the first, at the same position. -/
theorem exists_of_mem_right {xs : List α} {ys : List β} (each : List.Forall₂ R xs ys) {y : β}
    (member : y ∈ ys)
    : ∃ x ∈ xs, R x y := by
  obtain ⟨i, inside, rfl⟩ := List.getElem_of_mem member
  have before : i < xs.length := each.length_eq ▸ inside
  exact ⟨xs[i], List.getElem_mem before, each.get before inside⟩

/-- Items that are related to some of a list, but no two of them to the same, are related one by one
to a selection of the list.
-/
theorem exists_selection {xs : List α} {ys : List β}
    (apart : xs.Pairwise fun x x' => ∀ y, R x y → ¬R x' y) (within : ∀ x ∈ xs, ∃ y ∈ ys, R x y)
    : ∃ zs, List.Forall₂ R xs zs ∧ zs ⊆ ys ∧ zs.Nodup := by
  induction xs with
  | nil => exact ⟨[], .nil, List.nil_subset ys, List.nodup_nil⟩
  | cons x rest ih =>
      obtain ⟨first, others⟩ := List.pairwise_cons.mp apart
      obtain ⟨⟨y, found, related⟩, within⟩ := List.forall_mem_cons.mp within
      obtain ⟨zs, each, subset, nodup⟩ := ih others within
      refine ⟨y :: zs, .cons related each, List.cons_subset.mpr ⟨found, subset⟩,
        List.nodup_cons.mpr ⟨fun member => ?_, nodup⟩⟩
      obtain ⟨x', listed, again⟩ := exists_of_mem_right each member
      exact first x' listed _ related again

/-- If there are as many items in the list, then the selection is all of it. -/
theorem exists_perm {xs : List α} {ys : List β}
    (apart : xs.Pairwise fun x x' => ∀ y, R x y → ¬R x' y) (within : ∀ x ∈ xs, ∃ y ∈ ys, R x y)
    (sizes : xs.length = ys.length)
    : ∃ zs, List.Forall₂ R xs zs ∧ zs.Perm ys := by
  obtain ⟨zs, each, subset, nodup⟩ := exists_selection apart within
  exact ⟨zs, each, (List.subperm_of_subset nodup subset).perm_of_length_le
    (Nat.le_of_eq (sizes.symm.trans each.length_eq))⟩

end Correspondence

/-- Functions are the same in either order. -/
theorem Function.same_symm {f g : Function} (same : f.same g)
    : g.same f := by
  cases f <;> cases g <;> first
    | exact BEq.symm same
    | cases same

/-- So are expanders. -/
theorem Expander.same_symm {e k : Expander} (same : e.same k)
    : k.same e := by
  cases e <;> cases k <;> first
    | exact BEq.symm same
    | rfl
    | cases same

/-- Functions that are the same have the same words to hash, by their kind. -/
theorem Function.hashWords_eq_of_same {f g : Function} (same : f.same g)
    : f.hashWords = g.hashWords := by
  cases f <;> cases g <;> first
    | cases same
    | simp [Function.hashWords, eq_of_beq same]

/-- So have expanders. -/
theorem Expander.hashWords_eq_of_same {e k : Expander} (same : e.same k)
    : e.hashWords = k.hashWords := by
  cases e <;> cases k <;> first
    | rfl
    | cases same
    | simp [Expander.hashWords, eq_of_beq same]

namespace Value

-----------------------------------------------------------------------------------------
-- Proper values
-----------------------------------------------------------------------------------------

mutual

/-- (v.Proper) says that the sets in a value hold no two equal items, and its maps no two equal
keys.
-/
def Proper : Value → Prop
  | .list items _ => AllProper items
  | .vector items => AllProper items
  | .map entries => Differ (fun e f => equal e.1 f.1) entries ∧ EntriesProper entries
  | .set items => Differ equal items ∧ AllProper items
  | _ => True
termination_by structural v => v

/-- (AllProper vs) says that several values are proper. -/
def AllProper : List Value → Prop
  | [] => True
  | v :: rest => v.Proper ∧ AllProper rest
termination_by structural vs => vs

/-- (EntriesProper es) says that the keys and values of several entries are proper. -/
def EntriesProper : List (Value × Value) → Prop
  | [] => True
  | (k, v) :: rest => k.Proper ∧ v.Proper ∧ EntriesProper rest
termination_by structural es => es

end

/-- Several values are proper if each of them is. Witness: induction on them. -/
theorem allProper_iff {vs : List Value}
    : AllProper vs ↔ ∀ v ∈ vs, v.Proper := by
  induction vs with
  | nil => simp [AllProper]
  | cons v rest ih => rw [AllProper, ih, List.forall_mem_cons]

/-- Entries are proper if each key and value is. Witness: induction on them. -/
theorem entriesProper_iff {es : List (Value × Value)}
    : EntriesProper es ↔ ∀ e ∈ es, e.1.Proper ∧ e.2.Proper := by
  induction es with
  | nil => simp [EntriesProper]
  | cons e rest ih => rw [EntriesProper, ih, List.forall_mem_cons, and_assoc]

-----------------------------------------------------------------------------------------
-- Symmetry
-----------------------------------------------------------------------------------------

/-- Two entries are equal if their keys are and their values are. -/
abbrev entryEqual (e f : Value × Value)
    : Prop :=
  equal e.1 f.1 ∧ equal e.2 f.2

/-- The items of equal sets correspond one to one, if the first set is proper and equality with its
items is symmetric.
-/
theorem exists_perm_of_itemsWithin {vs ws : List Value} (differ : Differ equal vs)
    (symm : ∀ v ∈ vs, ∀ w, equal v w → equal w v) (sizes : vs.length = ws.length)
    (within : itemsWithin vs ws)
    : ∃ us, List.Forall₂ (fun v u => equal v u) vs us ∧ us.Perm ws := by
  refine exists_perm (differ.imp_of_mem fun _ member differs w same again => ?_)
    (itemsWithin_iff.mp within) sizes
  exact differs (equal_trans same (symm _ member w again))

/-- The entries of equal maps correspond one to one, if the first map is proper and equality with
its keys is symmetric.
-/
theorem exists_perm_of_entriesWithin {es fs : List (Value × Value)}
    (differ : Differ (fun e f => equal e.1 f.1) es)
    (symm : ∀ e ∈ es, ∀ w, equal e.1 w → equal w e.1) (sizes : es.length = fs.length)
    (within : entriesWithin es fs)
    : ∃ gs, List.Forall₂ entryEqual es gs ∧ gs.Perm fs := by
  refine exists_perm (differ.imp_of_mem fun _ member differs f same again => ?_)
    (entriesWithin_iff.mp within) sizes
  exact differs (equal_trans same.1 (symm _ member f.1 again.1))

mutual

/-- Equality with a proper value is symmetric. Witness: induction on the value. -/
theorem equal_symm
    : ∀ {v w : Value}, v.Proper → equal v w → equal w v
  | .list _ _, w, proper, same => by
      cases w with
      | list | vector => exact equalAll_symm proper same
      | _ => cases same
  | .vector _, w, proper, same => by
      cases w with
      | list | vector => exact equalAll_symm proper same
      | _ => cases same
  | .map es, w, proper, same => by
      cases w with
      | map fs =>
          rw [equal, Bool.and_eq_true, beq_iff_eq] at same ⊢
          refine ⟨same.1.symm, entriesWithin_iff.mpr fun f member => ?_⟩
          have symm := entries_symm proper.2
          obtain ⟨gs, each, perm⟩ := exists_perm_of_entriesWithin proper.1
            (fun e listed => (symm e listed).1) same.1 same.2
          obtain ⟨e, listed, found⟩ := exists_of_mem_right each (perm.mem_iff.mpr member)
          exact ⟨e, listed, (symm e listed).1 _ found.1, (symm e listed).2 _ found.2⟩
      | _ => cases same
  | .set vs, w, proper, same => by
      cases w with
      | set ws =>
          rw [equal, Bool.and_eq_true, beq_iff_eq] at same ⊢
          refine ⟨same.1.symm, itemsWithin_iff.mpr fun w member => ?_⟩
          have symm := items_symm proper.2
          obtain ⟨us, each, perm⟩ := exists_perm_of_itemsWithin proper.1 symm same.1 same.2
          obtain ⟨v, listed, found⟩ := exists_of_mem_right each (perm.mem_iff.mpr member)
          exact ⟨v, listed, symm v listed w found⟩
      | _ => cases same
  | .function f, w, _, same => by
      cases w with
      | function => exact Function.same_symm same
      | _ => cases same
  | .expander e, w, _, same => by
      cases w with
      | expander => exact Expander.same_symm same
      | _ => cases same
  | .nil, w, _, same | .bool _, w, _, same | .int _, w, _, same | .float _, w, _, same
  | .char _, w, _, same | .string _, w, _, same | .symbol _, w, _, same | .keyword _, w, _, same
  | .node _, w, _, same | .type _, w, _, same => by
      cases w <;> first
        | rfl
        | cases same
        | exact BEq.symm same
termination_by structural v => v

/-- Several values are equal in either order, by the first and the others. -/
theorem equalAll_symm
    : ∀ {vs ws : List Value}, AllProper vs → equalAll vs ws → equalAll ws vs
  | [], [], _, _ => rfl
  | [], _ :: _, _, same => by cases same
  | _ :: _, [], _, same => by cases same
  | _ :: _, _ :: _, proper, same => by
      rw [equalAll, Bool.and_eq_true] at same ⊢
      exact ⟨equal_symm proper.1 same.1, equalAll_symm proper.2 same.2⟩
termination_by structural vs => vs

/-- Each of several proper values is equal in either order. -/
theorem items_symm
    : ∀ {vs : List Value}, AllProper vs → ∀ v ∈ vs, ∀ w, equal v w → equal w v
  | [], _ => nofun
  | _ :: _, proper =>
      List.forall_mem_cons.mpr ⟨fun _ => equal_symm proper.1, items_symm proper.2⟩
termination_by structural vs => vs

/-- Each key and value of proper entries is equal in either order. -/
theorem entries_symm
    : ∀ {es : List (Value × Value)}, EntriesProper es → ∀ e ∈ es,
        (∀ w, equal e.1 w → equal w e.1) ∧ (∀ w, equal e.2 w → equal w e.2)
  | [], _ => nofun
  | (_, _) :: _, proper =>
      List.forall_mem_cons.mpr
        ⟨⟨fun _ => equal_symm proper.1, fun _ => equal_symm proper.2.1⟩,
          entries_symm proper.2.2⟩
termination_by structural es => es

end

-----------------------------------------------------------------------------------------
-- Proper collections
-----------------------------------------------------------------------------------------

section Collections

variable {a : Arrangement}

/-- Items that differ are the items of their set, if each goes to the end. -/
theorem distinct_of_differ {items : List Value} (differ : Differ equal items)
    : distinct .last items = items :=
  foldl_upsert_of_differ differ

/-- Entries with keys that differ are the entries of their map, if each goes to the end. -/
theorem distinctEntries_of_differ {entries : List (Value × Value)}
    (differ : Differ (fun e f => equal e.1 f.1) entries)
    : distinctEntries .last entries = entries :=
  foldl_upsert_of_differ differ

/-- A proper set with one more proper item is proper. -/
theorem Proper.insertItem {x : Value} {items : List Value} (proper : Proper (.set items))
    (item : x.Proper)
    : Proper (.set (insertItem a x items)) := by
  refine ⟨differ_upsert (fun u v w => @equal_trans u v w) (fun y _ => equal_symm item) proper.1,
    allProper_iff.mpr fun v member => ?_⟩
  rcases mem_upsert member with rfl | member
  · exact item
  · exact allProper_iff.mp proper.2 v member

/-- A proper map with one more proper entry is proper. -/
theorem Proper.insertEntry {key value : Value} {entries : List (Value × Value)}
    (proper : Proper (.map entries)) (entry : key.Proper ∧ value.Proper)
    : Proper (.map (insertEntry a key value entries)) := by
  refine ⟨differ_upsert (fun e f g => @equal_trans e.1 f.1 g.1) (fun e _ => equal_symm entry.1)
    proper.1, entriesProper_iff.mpr fun e member => ?_⟩
  rcases mem_upsert member with rfl | member
  · exact entry
  · exact entriesProper_iff.mp proper.2 e member

/-- The set of any proper items is proper. -/
theorem proper_setOf {items : List Value} (proper : AllProper items)
    : (setOf a items).Proper := by
  rw [allProper_iff] at proper
  refine ⟨differ_foldl_upsert (fun u v w => @equal_trans u v w) (fun x member y _ => ?_) .nil,
    allProper_iff.mpr fun v member => proper v (mem_distinct member)⟩
  exact equal_symm (proper x member)

/-- The map of any proper entries is proper. -/
theorem proper_mapOf {entries : List (Value × Value)} (proper : EntriesProper entries)
    : (mapOf a entries).Proper := by
  rw [entriesProper_iff] at proper
  refine ⟨differ_foldl_upsert (fun e f g => @equal_trans e.1 f.1 g.1) (fun e member f _ => ?_) .nil,
    entriesProper_iff.mpr fun e member => proper e (mem_distinctEntries member)⟩
  exact equal_symm (proper e member).1

end Collections

-----------------------------------------------------------------------------------------
-- Hashing
-----------------------------------------------------------------------------------------

variable {digest : Digest}

/-- The sum over a set does not depend on the order of its items. Witness: induction on the
permutation.
-/
theorem sumOfItems_perm {vs ws : List Value} (perm : vs.Perm ws)
    : sumOfItems digest vs = sumOfItems digest ws := by
  induction perm with
  | nil => rfl
  | cons v _ ih => rw [sumOfItems, sumOfItems, ih]
  | swap v w rest => simp only [sumOfItems, ← UInt64.add_assoc, UInt64.add_comm
    (digest (hashWords digest w))]
  | trans _ _ first second => exact first.trans second

/-- Nor does that over a map on the order of its entries. Witness: induction on the permutation. -/
theorem sumOfEntries_perm {es fs : List (Value × Value)} (perm : es.Perm fs)
    : sumOfEntries digest es = sumOfEntries digest fs := by
  induction perm with
  | nil => rfl
  | cons e _ ih => rw [sumOfEntries, sumOfEntries, ih]
  | swap e f rest =>
      simp only [sumOfEntries, ← UInt64.add_assoc,
        UInt64.add_comm (digest (hashWords digest f.1 ++ hashWords digest f.2))]
  | trans _ _ first second => exact first.trans second

/-- The sum over a set depends on the words of its items alone. Witness: induction on the
correspondence.
-/
theorem sumOfItems_congr {vs ws : List Value}
    (each : List.Forall₂ (fun v w => hashWords digest v = hashWords digest w) vs ws)
    : sumOfItems digest vs = sumOfItems digest ws := by
  induction each with
  | nil => rfl
  | cons same _ ih => rw [sumOfItems, sumOfItems, same, ih]

/-- That over a map depends on the words of its keys and values alone. Witness: induction on the
correspondence.
-/
theorem sumOfEntries_congr {es fs : List (Value × Value)}
    (each : List.Forall₂ (fun e f => hashWords digest e.1 = hashWords digest f.1
      ∧ hashWords digest e.2 = hashWords digest f.2)
      es fs)
    : sumOfEntries digest es = sumOfEntries digest fs := by
  induction each with
  | nil => rfl
  | cons same _ ih => rw [sumOfEntries, sumOfEntries, same.1, same.2, ih]

mutual

/-- Equal values have the same words to be hashed, if the first is proper. Witness: induction on the
value.
-/
theorem hashWords_eq_of_equal
    : ∀ {v w : Value}, v.Proper → equal v w → hashWords digest v = hashWords digest w
  | .list _ _, w, proper, same => by
      cases w with
      | list | vector =>
          obtain ⟨sizes, words⟩ := hashWordsOfAll_eq_of_equal proper same
          rw [hashWords, hashWords, sizes, words]
      | _ => cases same
  | .vector _, w, proper, same => by
      cases w with
      | list | vector =>
          obtain ⟨sizes, words⟩ := hashWordsOfAll_eq_of_equal proper same
          rw [hashWords, hashWords, sizes, words]
      | _ => cases same
  | .map es, w, proper, same => by
      cases w with
      | map fs =>
          rw [equal, Bool.and_eq_true, beq_iff_eq] at same
          obtain ⟨gs, each, perm⟩ := exists_perm_of_entriesWithin proper.1
            (fun e listed => (entries_symm proper.2 e listed).1) same.1 same.2
          have sums : sumOfEntries digest es = sumOfEntries digest gs :=
            sumOfEntries_congr (forall₂_entryHashWords proper.2 each)
          rw [hashWords, hashWords, same.1, sums, sumOfEntries_perm perm]
      | _ => cases same
  | .set vs, w, proper, same => by
      cases w with
      | set ws =>
          rw [equal, Bool.and_eq_true, beq_iff_eq] at same
          obtain ⟨us, each, perm⟩ :=
            exists_perm_of_itemsWithin proper.1 (items_symm proper.2) same.1 same.2
          have sums : sumOfItems digest vs = sumOfItems digest us :=
            sumOfItems_congr (forall₂_hashWords proper.2 each)
          rw [hashWords, hashWords, same.1, sums, sumOfItems_perm perm]
      | _ => cases same
  | .function f, w, _, same => by
      cases w with
      | function => rw [hashWords, hashWords, Function.hashWords_eq_of_same same]
      | _ => cases same
  | .expander e, w, _, same => by
      cases w with
      | expander => rw [hashWords, hashWords, Expander.hashWords_eq_of_same same]
      | _ => cases same
  | .node n, w, _, same => by
      cases w with
      | node m => rw [hashWords, hashWords, show n.identity = m.identity from eq_of_beq same]
      | _ => cases same
  | .nil, w, _, same | .bool _, w, _, same | .int _, w, _, same | .float _, w, _, same
  | .char _, w, _, same | .string _, w, _, same | .symbol _, w, _, same | .keyword _, w, _, same
  | .type _, w, _, same => by
      -- Equal values without parts are the same.
      cases w <;> first
        | rfl
        | cases same
        | exact eq_of_beq same ▸ rfl
termination_by structural v => v

/-- Equal values have the same words to hash, by the first and the others. -/
theorem hashWordsOfAll_eq_of_equal
    : ∀ {vs ws : List Value}, AllProper vs → equalAll vs ws
        → vs.length = ws.length ∧ hashWordsOfAll digest vs = hashWordsOfAll digest ws
  | [], [], _, _ => ⟨rfl, rfl⟩
  | [], _ :: _, _, same => by cases same
  | _ :: _, [], _, same => by cases same
  | _ :: _, _ :: _, proper, same => by
      rw [equalAll, Bool.and_eq_true] at same
      obtain ⟨sizes, words⟩ := hashWordsOfAll_eq_of_equal proper.2 same.2
      rw [List.length_cons, List.length_cons, sizes, hashWordsOfAll, hashWordsOfAll,
        hashWords_eq_of_equal proper.1 same.1, words]
      exact ⟨rfl, rfl⟩
termination_by structural vs => vs

/-- Values that are equal one by one have the same words one by one. -/
theorem forall₂_hashWords
    : ∀ {vs ws : List Value}, AllProper vs → List.Forall₂ (fun v w => equal v w) vs ws
        → List.Forall₂ (fun v w => hashWords digest v = hashWords digest w) vs ws
  | [], _, _, .nil => .nil
  | _ :: _, _, proper, .cons same others =>
      .cons (hashWords_eq_of_equal proper.1 same) (forall₂_hashWords proper.2 others)
termination_by structural vs => vs

/-- Entries that are equal one by one have the same words one by one. -/
theorem forall₂_entryHashWords
    : ∀ {es fs : List (Value × Value)}, EntriesProper es → List.Forall₂ entryEqual es fs
        → List.Forall₂
            (fun e f => hashWords digest e.1 = hashWords digest f.1 ∧ hashWords digest e.2
              = hashWords digest f.2) es fs
  | [], _, _, .nil => .nil
  | (_, _) :: _, _, proper, .cons same others =>
      .cons ⟨hashWords_eq_of_equal proper.1 same.1, hashWords_eq_of_equal proper.2.1 same.2⟩
        (forall₂_entryHashWords proper.2.2 others)
termination_by structural es => es

end

-----------------------------------------------------------------------------------------
-- Interchangeable keys
-----------------------------------------------------------------------------------------

section Interchange

variable {a : Arrangement} {u v : Value} (proper : u.Proper) (same : equal u v)

include proper same in
/-- The same values equal each of two equal values. -/
theorem equal_congr_right (w : Value)
    : equal w u = equal w v :=
  Bool.eq_iff_iff.mpr
    ⟨fun found => equal_trans found same, fun found => equal_trans found (equal_symm proper same)⟩

/-- Wherever an arrangement puts an item, the items of the table are the same. -/
theorem upsert_perm {α : Type} (a a' : Arrangement) (same : α → α → Bool) (x : α) (ys : List α)
    : (upsert a same x ys).Perm (upsert a' same x ys) := by
  have new (place : Nat) : (ys.take place ++ x :: ys.drop place).Perm (x :: ys) :=
    List.perm_middle.trans (by rw [List.take_append_drop])
  unfold upsert
  cases replaced? same x ys with
  | some items => exact .refl items
  | none => exact (new _).trans (new _).symm

include proper same in
/-- Sets with one of two equal items more are equal, in whatever order they keep their items. -/
theorem equal_insertItem (a a' : Arrangement) (items : List Value)
    : equal (.set (insertItem a u items)) (.set (insertItem a' v items)) := by
  have each : List.Forall₂ (fun x y => equal x y) (insertItem a u items) (insertItem a v items) :=
    upsert_rel (S := Eq) (R := fun x y => equal x y)
      (fun y _ at_ => at_ ▸ equal_congr_right proper same y)
        (fun y _ at_ => at_ ▸ equal_refl y) same
      (List.forall₂_same.mpr fun _ _ => rfl)
  have perm : (insertItem a v items).Perm (insertItem a' v items) := upsert_perm ..
  rw [equal, Bool.and_eq_true, beq_iff_eq]
  refine ⟨each.length_eq.trans perm.length_eq, itemsWithin_iff.mpr fun x member => ?_⟩
  obtain ⟨y, found, alike⟩ := exists_of_mem_left each member
  exact ⟨y, perm.mem_iff.mp found, alike⟩

include proper same in
/-- Maps with an entry more for one of two equal keys are equal, in whatever order they keep their
entries.
-/
theorem equal_insertEntry (a a' : Arrangement) (value : Value) (entries : List (Value × Value))
    : equal (.map (insertEntry a u value entries)) (.map (insertEntry a' v value entries)) := by
  have each : List.Forall₂ entryEqual (insertEntry a u value entries)
      (insertEntry a v value entries) :=
    upsert_rel (S := Eq) (R := entryEqual) (fun e _ at_ => at_ ▸ equal_congr_right proper same e.1)
      (fun e _ at_ => at_ ▸ ⟨equal_refl e.1, equal_refl e.2⟩) ⟨same, equal_refl value⟩
      (List.forall₂_same.mpr fun _ _ => rfl)
  have perm : (insertEntry a v value entries).Perm (insertEntry a' v value entries) :=
    upsert_perm ..
  rw [equal, Bool.and_eq_true, beq_iff_eq]
  refine ⟨each.length_eq.trans perm.length_eq, entriesWithin_iff.mpr fun e member => ?_⟩
  obtain ⟨f, found, alike⟩ := exists_of_mem_left each member
  exact ⟨f, perm.mem_iff.mp found, alike⟩

end Interchange

/-- Equality is a sound relation of keys. It is an equivalence of proper values; and two equal ones
have the same words to be hashed and can stand for each other as keys of maps and as items of
sets: what is found under one is found under the other, and to put in one is to put in the other,
wherever the two tables put new items.
-/
theorem equal_is_key_relation
    : Equivalence (fun u v : {v : Value // v.Proper} => (equal u.1 v.1 : Prop))
      ∧ ∀ u v : {v : Value // v.Proper}, equal u.1 v.1 →
          (∀ digest, hashWords digest u.1 = hashWords digest v.1)
            ∧ (∀ entries, entry? entries u.1 = entry? entries v.1)
            ∧ (∀ items : List Value, items.any (· == u.1) = items.any (· == v.1))
            ∧ (∀ a a' value entries, equal (.map (insertEntry a u.1 value entries))
                (.map (insertEntry a' v.1 value entries)))
            ∧ ∀ a a' items,
                equal (.set (insertItem a u.1 items)) (.set (insertItem a' v.1 items)) := by
  refine ⟨⟨fun u => equal_refl u.1, fun {u _} => equal_symm u.2, equal_trans⟩, ?_⟩
  intro ⟨u, proper⟩ ⟨v, _⟩ same
  have alike (w : Value) : (w == u) = (w == v) := equal_congr_right proper same w
  refine ⟨fun _ => hashWords_eq_of_equal proper same, fun entries => ?_, fun items => ?_,
    equal_insertEntry proper same, equal_insertItem proper same⟩
  · simp only [Value.entry?, alike]
  · simp only [alike]

/-- Two maps from a set of lists and from a number, whose entries and items come in another order,
with vectors for the lists in one of them.
-/
theorem reordered_map_is_same_key
    : let key := Value.keyword (.bare "k")
      let u := Value.map
        [(.set [.listOf [.int 1], .listOf [.int 2, key]], .int 3), (.int 4, .listOf [])]
      let v := Value.map
        [(.int 4, .vector []), (.set [.vector [.int 2, key], .vector [.int 1]], .int 3)]
      u.Proper ∧ v.Proper ∧ equal u v ∧ equal v u
        ∧ (∀ digest, hashWords digest u = hashWords digest v)
        ∧ ∀ entries, entry? entries u = entry? entries v := by
  intro key u v
  have first : u.Proper :=
    ⟨by decide, ⟨by decide, ⟨trivial, trivial⟩, ⟨trivial, trivial, trivial⟩, trivial⟩, trivial,
      trivial, trivial, trivial⟩
  have second : v.Proper :=
    ⟨by decide, trivial, trivial, ⟨by decide, ⟨trivial, trivial, trivial⟩, ⟨trivial, trivial⟩,
      trivial⟩, trivial, trivial⟩
  have same : equal u v := by decide
  obtain ⟨equivalence, interchange⟩ := equal_is_key_relation
  obtain ⟨words, found, -⟩ := interchange ⟨u, first⟩ ⟨v, second⟩ same
  have reversed : equal v u := @equivalence.symm ⟨u, first⟩ ⟨v, second⟩ same
  exact ⟨first, second, same, reversed, words, found⟩

end Value

end IncrementalLisp
