import IncrementalLisp.Proofs.Value.Keys
import Mathlib.Data.List.Perm.Basic

/-! Values that differ only in the order in which their tables hand their items out. Such values are
equal. What goes into a table decides what is in it, and only the order depends on the arrangement,
so that tables of values which differ in this way differ in this way.
-/

namespace IncrementalLisp

-----------------------------------------------------------------------------------------
-- Items put into tables in different orders
-----------------------------------------------------------------------------------------

namespace Value

section Upsert

variable {α : Type} {same : α → α → Bool} {a a' : Arrangement}

/-- Tables that hold the same items hold the same after one more has been put in, if those that are
the same as that one are the same as each other.
-/
theorem upsert_perm_of_perm {x : α} {ys ys' : List α} (perm : ys.Perm ys')
    (differ : Differ same ys)
    (alike : ∀ y ∈ ys, ∀ z ∈ ys, same y x → same z x → same y z)
    : (upsert a same x ys).Perm (upsert a' same x ys') := by
  obtain ⟨front, back, put, earlier, origin⟩ := upsert_cases a same x ys
  obtain ⟨front', back', put', earlier', origin'⟩ := upsert_cases a' same x ys'
  suffices others : (front ++ back).Perm (front' ++ back') by
    rw [put, put']
    exact List.perm_middle.trans ((others.cons x).trans List.perm_middle.symm)
  rcases origin with ⟨y, rfl, again⟩ | ⟨rfl, -, later⟩
  · rcases origin' with ⟨y', rfl, again'⟩ | ⟨rfl, -, later'⟩
    · have late : y' ∈ y :: back := by
        have member : y' ∈ front ++ y :: back := perm.mem_iff.mpr (by simp)
        exact (List.mem_append.mp member).resolve_left fun early => earlier y' early again'
      have one : y' = y := by
        refine (List.mem_cons.mp late).resolve_right fun behind => ?_
        have apart := (List.pairwise_cons.mp (List.pairwise_append.mp differ).2.1).1 y' behind
        exact apart (alike y (by simp) y' (by simp [behind]) again again')
      subst one
      exact (List.perm_middle.symm.trans (perm.trans List.perm_middle)).cons_inv
    · have member : y ∈ front' ++ back' := perm.mem_iff.mp (by simp)
      rcases List.mem_append.mp member with early | late
      · exact absurd again (earlier' y early)
      · exact absurd again (later' y late)
  · rcases origin' with ⟨y', rfl, again'⟩ | ⟨rfl, -, -⟩
    · have member : y' ∈ front ++ back := perm.mem_iff.mpr (by simp)
      rcases List.mem_append.mp member with early | late
      · exact absurd again' (earlier y' early)
      · exact absurd again' (later y' late)
    · exact perm

/-- What is put into two tables one item after the other is in both, whatever their arrangements. -/
theorem foldl_upsert_perm (trans : ∀ x y z, same x y → same y z → same x z)
    {items done done' : List α}
    (symm : ∀ x ∈ done ++ items, ∀ y ∈ done ++ items, same x y → same y x)
    (perm : done.Perm done') (differ : Differ same done)
    : (items.foldl (fun all x => upsert a same x all) done).Perm
        (items.foldl (fun all x => upsert a' same x all) done') := by
  induction items generalizing done done' with
  | nil => exact perm
  | cons x rest ih =>
      have inner {z : α} (member : z ∈ upsert a same x done ++ rest) : z ∈ done ++ x :: rest := by
        rcases List.mem_append.mp member with early | late
        · rcases mem_upsert early with rfl | early <;> simp [*]
        · simp [late]
      have alike : ∀ y ∈ done, ∀ z ∈ done, same y x → same z x → same y z :=
        fun y _ z there one other => trans y x z one (symm z (by simp [there]) x (by simp) other)
      refine ih (fun y first z second => symm y (inner first) z (inner second))
        (upsert_perm_of_perm perm differ alike) ?_
      exact differ_upsert trans
        (fun y member => symm x (by simp) y (by simp [List.mem_of_mem_drop member])) differ

end Upsert

/-- Sets of the same proper items hold the same. -/
theorem distinct_perm {a a' : Arrangement} {items : List Value} (proper : AllProper items)
    : (distinct a items).Perm (distinct a' items) := by
  rw [allProper_iff] at proper
  exact foldl_upsert_perm (fun u v w => @equal_trans u v w)
    (fun x member y _ => equal_symm (proper x member)) .nil .nil

/-- Maps of the same entries with proper keys hold the same. -/
theorem distinctEntries_perm {a a' : Arrangement} {entries : List (Value × Value)}
    (proper : EntriesProper entries)
    : (distinctEntries a entries).Perm (distinctEntries a' entries) := by
  rw [entriesProper_iff] at proper
  exact foldl_upsert_perm (fun e f g => @equal_trans e.1 f.1 g.1)
    (fun e member f _ => equal_symm (proper e member).1) .nil .nil

-----------------------------------------------------------------------------------------
-- Reordered values
-----------------------------------------------------------------------------------------

mutual

/-- (v.Reorders w) says that two values differ at most in the order of the items of their sets and
of the entries of their maps, at any depth.
-/
def Reorders : Value → Value → Prop
  | .list items source, w => ∃ items', w = .list items' source ∧ AllReorder items items'
  | .vector items, w => ∃ items', w = .vector items' ∧ AllReorder items items'
  | .set items, w =>
      ∃ middle items', w = .set items' ∧ AllReorder items middle ∧ middle.Perm items'
  | .map entries, w =>
      ∃ middle entries', w = .map entries' ∧ EntriesReorder entries middle ∧ middle.Perm entries'
  | v, w => w = v
termination_by structural v => v

/-- The same of several values, one by one. -/
def AllReorder : List Value → List Value → Prop
  | [], ws => ws = []
  | v :: rest, ws => ∃ w others, ws = w :: others ∧ v.Reorders w ∧ AllReorder rest others
termination_by structural vs => vs

/-- The same of the keys and values of several entries. -/
def EntriesReorder : List (Value × Value) → List (Value × Value) → Prop
  | [], fs => fs = []
  | (k, v) :: rest, fs =>
      ∃ k' v' others, fs = (k', v') :: others ∧ k.Reorders k' ∧ v.Reorders v'
        ∧ EntriesReorder rest others
termination_by structural es => es

end

/-- Entries whose keys and values are reordered. -/
abbrev EntryReorders (e f : Value × Value)
    : Prop :=
  e.1.Reorders f.1 ∧ e.2.Reorders f.2

/-- Several values are reordered if they are so one by one. Witness: induction on them. -/
theorem allReorder_iff {vs ws : List Value}
    : AllReorder vs ws ↔ List.Forall₂ Reorders vs ws := by
  induction vs generalizing ws with
  | nil => rw [AllReorder, List.forall₂_nil_left_iff]
  | cons v rest ih => simp only [AllReorder, ih, List.forall₂_cons_left_iff]; grind

/-- So are entries. Witness: induction on them. -/
theorem entriesReorder_iff {es fs : List (Value × Value)}
    : EntriesReorder es fs ↔ List.Forall₂ EntryReorders es fs := by
  induction es generalizing fs with
  | nil => rw [EntriesReorder, List.forall₂_nil_left_iff]
  | cons e rest ih => simp only [EntriesReorder, ih, List.forall₂_cons_left_iff]; grind

mutual

/-- A value is a reordered form of itself. Witness: induction on the value. -/
theorem Reorders.refl
    : ∀ v : Value, v.Reorders v
  | .list items _ => ⟨items, rfl, allReorder_refl items⟩
  | .vector items => ⟨items, rfl, allReorder_refl items⟩
  | .set items => ⟨items, items, rfl, allReorder_refl items, .refl items⟩
  | .map entries => ⟨entries, entries, rfl, entriesReorder_refl entries, .refl entries⟩
  | .nil | .bool _ | .int _ | .float _ | .char _ | .string _ | .symbol _ | .keyword _ | .function _
  | .expander _ | .node _ | .type _ => rfl
termination_by structural v => v

/-- So are several values. -/
theorem allReorder_refl
    : ∀ vs : List Value, AllReorder vs vs
  | [] => rfl
  | v :: rest => ⟨v, rest, rfl, .refl v, allReorder_refl rest⟩
termination_by structural vs => vs

/-- So are entries. -/
theorem entriesReorder_refl
    : ∀ es : List (Value × Value), EntriesReorder es es
  | [] => rfl
  | (k, v) :: rest => ⟨k, v, rest, rfl, .refl k, .refl v, entriesReorder_refl rest⟩
termination_by structural es => es

end

mutual

/-- Values that differ only in order are equal, either way round. Witness: induction on the value.
-/
theorem Reorders.equals
    : ∀ {v w : Value}, v.Reorders w → equal v w ∧ equal w v
  | .list _ _, _, ⟨_, same, items⟩ => by
      rw [same, equal, equal]
      exact equalAll_of_allReorder items
  | .vector _, _, ⟨_, same, items⟩ => by
      rw [same, equal, equal]
      exact equalAll_of_allReorder items
  | .set items, _, ⟨middle, items', same, each, perm⟩ => by
      have found := items_of_allReorder each
      have sizes := (allReorder_iff.mp each).length_eq.trans perm.length_eq
      rw [same, equal, equal]
      simp only [Bool.and_eq_true, beq_iff_eq, itemsWithin_iff]
      refine ⟨⟨sizes, fun x member => ?_⟩, sizes.symm, fun y member => ?_⟩
      · obtain ⟨y, listed, alike⟩ := found.1 x member
        exact ⟨y, perm.mem_iff.mp listed, alike⟩
      · exact found.2 y (perm.mem_iff.mpr member)
  | .map entries, _, ⟨middle, entries', same, each, perm⟩ => by
      have found := entries_of_entriesReorder each
      have sizes := (entriesReorder_iff.mp each).length_eq.trans perm.length_eq
      rw [same, equal, equal]
      simp only [Bool.and_eq_true, beq_iff_eq, entriesWithin_iff]
      refine ⟨⟨sizes, fun e member => ?_⟩, sizes.symm, fun f member => ?_⟩
      · obtain ⟨f, listed, alike⟩ := found.1 e member
        exact ⟨f, perm.mem_iff.mp listed, alike⟩
      · exact found.2 f (perm.mem_iff.mpr member)
  | .nil, _, same | .bool _, _, same | .int _, _, same | .float _, _, same | .char _, _, same
  | .string _, _, same | .symbol _, _, same | .keyword _, _, same | .function _, _, same
  | .expander _, _, same | .node _, _, same | .type _, _, same => by
      rw [same]
      exact ⟨equal_refl _, equal_refl _⟩
termination_by structural v => v

/-- Reordered values are all equal in both orders, by the first and the others. -/
theorem equalAll_of_allReorder
    : ∀ {vs ws : List Value}, AllReorder vs ws → equalAll vs ws ∧ equalAll ws vs
  | [], _, same => by
      rw [same]
      exact ⟨rfl, rfl⟩
  | _ :: _, _, ⟨_, _, same, first, others⟩ => by
      rw [same, equalAll, equalAll]
      simp only [Bool.and_eq_true]
      have first := first.equals
      have others := equalAll_of_allReorder others
      exact ⟨⟨first.1, others.1⟩, first.2, others.2⟩
termination_by structural vs => vs

/-- Each of several values has an equal one among the reordered, and the other way round. -/
theorem items_of_allReorder
    : ∀ {vs ws : List Value}, AllReorder vs ws
        → (∀ v ∈ vs, ∃ w ∈ ws, equal v w) ∧ ∀ w ∈ ws, ∃ v ∈ vs, equal w v
  | [], _, same => by
      rw [same]
      exact ⟨nofun, nofun⟩
  | v :: rest, _, ⟨w, others, same, first, last⟩ => by
      have first := first.equals
      have last := items_of_allReorder last
      rw [same]
      simp only [List.forall_mem_cons, List.exists_mem_cons_iff]
      exact ⟨⟨.inl first.1, fun x member => .inr (last.1 x member)⟩, .inl first.2,
        fun y member => .inr (last.2 y member)⟩
termination_by structural vs => vs

/-- So has each of several entries. -/
theorem entries_of_entriesReorder
    : ∀ {es fs : List (Value × Value)}, EntriesReorder es fs
        → (∀ e ∈ es, ∃ f ∈ fs, entryEqual e f) ∧ ∀ f ∈ fs, ∃ e ∈ es, entryEqual f e
  | [], _, same => by
      rw [same]
      exact ⟨nofun, nofun⟩
  | (k, v) :: rest, _, ⟨k', v', others, same, key, value, last⟩ => by
      have key := key.equals
      have value := value.equals
      have last := entries_of_entriesReorder last
      rw [same]
      simp only [List.forall_mem_cons, List.exists_mem_cons_iff]
      exact ⟨⟨.inl ⟨key.1, value.1⟩, fun e member => .inr (last.1 e member)⟩,
        .inl ⟨key.2, value.2⟩, fun f member => .inr (last.2 f member)⟩
termination_by structural es => es

end

/-- Reordered values are equal to the same values. -/
theorem Reorders.equal_eq {v v' w w' : Value} (first : v.Reorders v') (second : w.Reorders w')
    : equal v w = equal v' w' := by
  have ⟨there, back⟩ := first.equals
  have ⟨there', back'⟩ := second.equals
  exact Bool.eq_iff_iff.mpr ⟨fun same => equal_trans back (equal_trans same there'),
    fun same => equal_trans there (equal_trans same back')⟩

-----------------------------------------------------------------------------------------
-- Reordered tables
-----------------------------------------------------------------------------------------

variable {a a' : Arrangement}

/-- Sets of reordered items are reordered, if the items are proper. -/
theorem setOf_reorders {items items' : List Value} (proper : AllProper items)
    (each : List.Forall₂ Reorders items items')
    : (setOf a items).Reorders (setOf a' items') := by
  have kept : List.Forall₂ Reorders (distinct a' items) (distinct a' items') :=
    foldl_upsert_rel (fun _ _ first _ _ second => second.equal_eq first) (fun _ _ => id) each .nil
  obtain ⟨middle, related, perm⟩ := List.perm_comp_forall₂ (distinct_perm proper) kept
  exact ⟨middle, _, rfl, allReorder_iff.mpr related, perm⟩

/-- Maps of reordered entries are reordered, if the entries are proper. -/
theorem mapOf_reorders {entries entries' : List (Value × Value)} (proper : EntriesProper entries)
    (each : List.Forall₂ EntryReorders entries entries')
    : (mapOf a entries).Reorders (mapOf a' entries') := by
  have kept : List.Forall₂ EntryReorders (distinctEntries a' entries)
      (distinctEntries a' entries') :=
    foldl_upsert_rel (fun _ _ first _ _ second => second.1.equal_eq first.1)
      (fun _ _ => id) each .nil
  obtain ⟨middle, related, perm⟩ := List.perm_comp_forall₂ (distinctEntries_perm proper) kept
  exact ⟨middle, _, rfl, entriesReorder_iff.mpr related, perm⟩

/-- What a proper set holds is arranged anew. -/
theorem set_reorders {items items' : List Value} (proper : Proper (.set items))
    (each : List.Forall₂ Reorders items items')
    : Reorders (.set items) (setOf a items') := by
  have whole : Reorders (setOf .last items) (setOf a items') := setOf_reorders proper.2 each
  rwa [setOf, distinct_of_differ proper.1] at whole

/-- What a proper map holds is arranged anew. -/
theorem map_reorders {entries entries' : List (Value × Value)} (proper : Proper (.map entries))
    (each : List.Forall₂ EntryReorders entries entries')
    : Reorders (.map entries) (mapOf a entries') := by
  have whole : Reorders (mapOf .last entries) (mapOf a entries') := mapOf_reorders proper.2 each
  rwa [mapOf, distinctEntries_of_differ proper.1] at whole

end Value

end IncrementalLisp
