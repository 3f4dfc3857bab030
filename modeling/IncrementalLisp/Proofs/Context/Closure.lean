import IncrementalLisp.Context.Basic
import Mathlib.Data.List.Perm.Subperm
import Mathlib.Logic.Relation

/-! The search for the dependents of a symbol finds the closure of the index: each round adds
the dependents of what was found, no set outgrows the dependents that occur in the index, and a
round that adds nothing ends the search. The graph may have cycles and edges through symbols
that have no slot.
-/

namespace IncrementalLisp

-----------------------------------------------------------------------------------------
-- Sets of symbols by their size
-----------------------------------------------------------------------------------------

namespace SymbolSet

variable {small large : SymbolSet}

/-- The list of the elements holds each once, since neighbours in it never compare as equal. -/
theorem nodup_toList (set : SymbolSet)
    : set.toList.Nodup :=
  Std.ExtTreeSet.distinct_toList.imp fun differ same => differ (by simp [same])

/-- A set inside another has no more elements. Witness: its elements listed without repetition.
-/
theorem size_le_of_forall_mem (inside : ∀ s ∈ small, s ∈ large)
    : small.size ≤ large.size := by
  rw [← Std.ExtTreeSet.length_toList, ← Std.ExtTreeSet.length_toList]
  apply List.Nodup.length_le_of_subset
  · exact nodup_toList small
  · intro s member
    rw [Std.ExtTreeSet.mem_toList] at member ⊢
    exact inside s member

/-- A set inside another that is not larger holds all of it. -/
theorem mem_of_size_le (inside : ∀ s ∈ small, s ∈ large) (bound : large.size ≤ small.size)
    : ∀ s ∈ large, s ∈ small := by
  have subset : small.toList ⊆ large.toList := by
    intro s member
    rw [Std.ExtTreeSet.mem_toList] at member ⊢
    exact inside s member
  have lengths : large.toList.length ≤ small.toList.length := by
    simpa only [Std.ExtTreeSet.length_toList] using bound
  have perm := (List.subperm_of_subset (nodup_toList small) subset).perm_of_length_le lengths
  intro s member
  rw [← Std.ExtTreeSet.mem_toList] at member ⊢
  exact perm.mem_iff.mpr member

/-- A union over a list of symbols has the elements of the start and of each part. -/
theorem mem_foldl_union {α : Type} (parts : List α) (f : α → SymbolSet) (start : SymbolSet)
    {k : Symbol}
    : k ∈ parts.foldl (fun all a => all ∪ f a) start ↔ k ∈ start ∨ ∃ a ∈ parts, k ∈ f a := by
  induction parts generalizing start with
  | nil => simp
  | cons a rest ih =>
      rw [List.foldl_cons, ih, Std.ExtTreeSet.mem_union_iff, or_assoc]
      simp

end SymbolSet

-----------------------------------------------------------------------------------------
-- The search
-----------------------------------------------------------------------------------------

namespace Context

variable {c : Context} {found : SymbolSet} {d k : Symbol}

/-- One round adds to a set exactly the direct dependents of what is in it, by the members of a
folded union.
-/
theorem mem_withDependents
    : k ∈ c.withDependents found ↔ k ∈ found ∨ ∃ d ∈ found, k ∈ c.directDependents d := by
  unfold withDependents
  rw [Std.ExtTreeSet.foldl_eq_foldl_toList, SymbolSet.mem_foldl_union]
  simp only [Std.ExtTreeSet.mem_toList]

/-- Every direct dependent is one of the symbols that occur in the index as dependents. -/
theorem mem_allDependents (dependent : k ∈ c.directDependents d)
    : k ∈ c.allDependents := by
  unfold allDependents
  rw [Std.ExtTreeMap.foldl_eq_foldl_toList,
    SymbolSet.mem_foldl_union (f := fun entry : Symbol × SymbolSet => entry.2)]
  unfold directDependents at dependent
  cases held : c.dependents[d]? with
  | none => simp [held] at dependent
  | some entry =>
      rw [held, Option.getD_some] at dependent
      exact Or.inr ⟨(d, entry), Std.ExtTreeMap.mem_toList_iff_getElem?_eq_some.mpr held, dependent⟩

/-- The search keeps what it starts from. -/
theorem subset_closure (rounds : Nat) (member : k ∈ found)
    : k ∈ c.closure rounds found := by
  induction rounds generalizing found with
  | zero => exact member
  | succ rounds ih =>
      simp only [closure]
      split
      · exact member
      · exact ih (mem_withDependents.mpr (Or.inl member))

/-- Everything the search finds is reached from its start along edges of the index. -/
theorem reached_of_mem_closure (rounds : Nat) (member : k ∈ c.closure rounds found)
    : ∃ d ∈ found, Relation.ReflTransGen (fun d k => k ∈ c.directDependents d) d k := by
  induction rounds generalizing found with
  | zero => exact ⟨k, member, .refl⟩
  | succ rounds ih =>
      simp only [closure] at member
      split at member
      · exact ⟨k, member, .refl⟩
      · obtain ⟨d, start, path⟩ := ih member
        rcases mem_withDependents.mp start with old | ⟨e, old, edge⟩
        · exact ⟨d, old, path⟩
        · exact ⟨e, old, .head edge path⟩

/-- With as many rounds as there are dependents left to find, the search ends on a set that
holds the dependents of its elements. Witness: a round that adds nothing leaves the set closed,
and a set as large as all dependents has nothing to add.
-/
theorem closure_closed (rounds : Nat) (inside : ∀ s ∈ found, s ∈ c.allDependents)
    (enough : c.allDependents.size ≤ rounds + found.size)
    : ∀ d ∈ c.closure rounds found, ∀ k ∈ c.directDependents d, k ∈ c.closure rounds found := by
  induction rounds generalizing found with
  | zero =>
      intro d member k edge
      simp only [closure] at member ⊢
      exact SymbolSet.mem_of_size_le inside (by omega) k (mem_allDependents edge)
  | succ rounds ih =>
      have grown : ∀ s ∈ found, s ∈ c.withDependents found :=
        fun s member => mem_withDependents.mpr (Or.inl member)
      simp only [closure]
      split
      · rename_i same
        have same : (c.withDependents found).size = found.size := by simpa using same
        intro d member k edge
        exact SymbolSet.mem_of_size_le grown (by omega) k
          (mem_withDependents.mpr (Or.inr ⟨d, member, edge⟩))
      · rename_i differ
        have differ : (c.withDependents found).size ≠ found.size := by simpa using differ
        apply ih
        · intro s member
          rcases mem_withDependents.mp member with old | ⟨d, _, edge⟩
          · exact inside s old
          · exact mem_allDependents edge
        · have larger := SymbolSet.size_le_of_forall_mem grown
          omega

/-- The dependents of a symbol are what the index reaches from it in one step or more. -/
theorem mem_transitiveDependents_iff_reached {s : Symbol}
    : k ∈ c.transitiveDependents s
      ↔ Relation.TransGen (fun d k => k ∈ c.directDependents d) s k := by
  constructor
  · intro member
    obtain ⟨d, edge, path⟩ := reached_of_mem_closure _ member
    exact Relation.TransGen.head' edge path
  · intro path
    have inside : ∀ k ∈ c.directDependents s, k ∈ c.allDependents :=
      fun _ edge => mem_allDependents edge
    have closed := closure_closed c.allDependents.size inside (Nat.le_add_right _ _)
    induction path with
    | single edge => exact subset_closure _ edge
    | tail _ edge ih => exact closed _ ih _ edge

end Context
end IncrementalLisp
