import IncrementalLisp.Context.Basic
import Mathlib.Tactic.Tauto

/-! The dependents index is the reverse of the dependency sets. A definition takes the edges of
the slot it replaces out of the index and puts its own edges in, so the two stay the same
relation read in the two directions.
-/

namespace IncrementalLisp

-----------------------------------------------------------------------------------------
-- Edges of an index
-----------------------------------------------------------------------------------------

/-- (linked index d k) says that the index holds k as a dependent of d. -/
def Context.linked (index : SymbolMap SymbolSet) (d k : Symbol)
    : Prop :=
  k ∈ (index[d]?).getD ∅

/-- No symbol is held with an empty set of dependents. -/
def Context.noneIdle (index : SymbolMap SymbolSet)
    : Prop :=
  ∀ (d : Symbol) (found : SymbolSet), index[d]? = some found → found ≠ ∅

namespace Context

variable {index : SymbolMap SymbolSet} {s d e k : Symbol}

/-- Removing a link changes the dependents of one symbol, whose entry goes when it becomes empty. -/
theorem getElem?_unlink
    : (unlink s index e)[d]?
      = if e = d then
          if (((index[e]?).getD ∅).erase s).isEmpty then none
          else some (((index[e]?).getD ∅).erase s)
        else index[d]? := by
  simp only [unlink]
  split <;> simp only [Std.ExtTreeMap.getElem?_erase, Std.ExtTreeMap.getElem?_insert,
    Std.LawfulEqCmp.compare_eq_iff_eq]

/-- Adding a link changes the dependents of one symbol, which has an entry from then on. -/
theorem getElem?_link
    : (link s index e)[d]?
      = if e = d then some (((index[e]?).getD ∅).insert s) else index[d]? := by
  simp only [link, Std.ExtTreeMap.getElem?_insert, Std.LawfulEqCmp.compare_eq_iff_eq]

/-- Taking out one dependency removes that one edge, whether or not its entry goes with it. -/
theorem linked_unlink
    : linked (unlink s index e) d k ↔ linked index d k ∧ ¬(d = e ∧ k = s) := by
  unfold linked
  rw [getElem?_unlink]
  by_cases same : e = d
  · subst same
    have erased : k ∈ ((index[e]?).getD ∅).erase s ↔ k ∈ (index[e]?).getD ∅ ∧ k ≠ s := by
      rw [Std.ExtTreeSet.mem_erase, Ne, Std.LawfulEqCmp.compare_eq_iff_eq, and_comm,
        ne_comm]
    by_cases idle : (((index[e]?).getD ∅).erase s).isEmpty
    · rw [Std.ExtTreeSet.isEmpty_iff] at idle
      rw [idle] at erased
      simp only [idle, Std.ExtTreeSet.isEmpty_empty, if_true, Option.getD_none, true_and]
      exact erased
    · simp only [idle, if_true, Bool.false_eq_true, if_false, Option.getD_some, true_and]
      exact erased
  · have other : d ≠ e := Ne.symm same
    simp [same, other]

/-- Putting in one dependency adds that one edge. -/
theorem linked_link
    : linked (link s index e) d k ↔ linked index d k ∨ (d = e ∧ k = s) := by
  unfold linked
  rw [getElem?_link]
  by_cases same : e = d
  · subst same
    simp only [if_true, Option.getD_some, Std.ExtTreeSet.mem_insert,
      Std.LawfulEqCmp.compare_eq_iff_eq, true_and]
    rw [or_comm, eq_comm]
  · have other : d ≠ e := Ne.symm same
    simp [same, other]

/-- Removing a link leaves no symbol idle, since an entry that becomes empty goes. -/
theorem noneIdle_unlink (busy : noneIdle index)
    : noneIdle (unlink s index e) := by
  intro d found held
  rw [getElem?_unlink] at held
  split at held
  · split at held
    · exact absurd held (by simp)
    · rename_i same idle
      rw [Std.ExtTreeSet.isEmpty_iff] at idle
      exact Option.some.inj held ▸ idle
  · exact busy d found held

/-- Adding a link leaves no symbol idle, since its entry has the new dependent. -/
theorem noneIdle_link (busy : noneIdle index)
    : noneIdle (link s index e) := by
  intro d found held
  rw [getElem?_link] at held
  split at held
  · intro idle
    have member : s ∈ found := by
      rw [← Option.some.inj held]
      exact Std.ExtTreeSet.mem_insert_self
    simp [idle] at member
  · exact busy d found held

/-- Taking out several dependencies removes just the edges from them.
Witness: induction on the dependencies, one edge at a time.
-/
theorem linked_foldl_unlink (old : List Symbol)
    : linked (old.foldl (unlink s) index) d k ↔ linked index d k ∧ ¬(d ∈ old ∧ k = s) := by
  induction old generalizing index with
  | nil => simp
  | cons e rest ih =>
      rw [List.foldl_cons, ih, linked_unlink, List.mem_cons]
      tauto

/-- Putting in several dependencies adds just the edges from them.
Witness: induction on the dependencies, one edge at a time.
-/
theorem linked_foldl_link (new : List Symbol)
    : linked (new.foldl (link s) index) d k ↔ linked index d k ∨ (d ∈ new ∧ k = s) := by
  induction new generalizing index with
  | nil => simp
  | cons e rest ih =>
      rw [List.foldl_cons, ih, linked_link, List.mem_cons]
      tauto

/-- Removing several links leaves no symbol idle, by induction on the symbols that are unlinked. -/
theorem noneIdle_foldl_unlink (old : List Symbol) (busy : noneIdle index)
    : noneIdle (old.foldl (unlink s) index) := by
  induction old generalizing index with
  | nil => exact busy
  | cons e rest ih => exact ih (noneIdle_unlink busy)

/-- Adding several links leaves no symbol idle, by induction on the symbols that are linked. -/
theorem noneIdle_foldl_link (new : List Symbol) (busy : noneIdle index)
    : noneIdle (new.foldl (link s) index) := by
  induction new generalizing index with
  | nil => exact busy
  | cons e rest ih => exact ih (noneIdle_link busy)

end Context
end IncrementalLisp
