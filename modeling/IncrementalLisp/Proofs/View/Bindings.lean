import IncrementalLisp.Proofs.View.References

/-! Bindings that look alike to a reader of some names: they give values that look alike to these
names, and what else they hold either looks alike too or may be left out of the view. They look
alike to readers of fewer names as well, and still do after the same names are bound to values
that look alike.
-/

namespace IncrementalLisp

namespace Bindings

variable {V : View} {reads fewer : Symbol → Bool} {b b' : Bindings}

/-- The first binding is seen unless it is neither read nor worth seeing, and then the others. -/
theorem seen_cons (V : View) (reads : Symbol → Bool) (s : Symbol) (v : Value) (b : Bindings)
    : seen V reads ((s, v) :: b)
      = if reads s || !V.drops v then (s, v.seen V) :: seen V reads b else seen V reads b := by
  unfold seen
  rw [List.filter_cons]
  split <;> rfl

-----------------------------------------------------------------------------------------
-- Readers
-----------------------------------------------------------------------------------------

/-- A symbol that is read has its value, as it is seen. Witness: induction on the bindings. -/
theorem get?_seen (b : Bindings) {s : Symbol} (read : reads s = true)
    : (seen V reads b).get? s = (b.get? s).map (Value.seen V) := by
  induction b with
  | nil => rfl
  | cons entry rest ih =>
      obtain ⟨t, v⟩ := entry
      rw [seen_cons, get?_cons]
      by_cases named : s = t
      · subst named
        simp [read, get?_cons]
      · rw [if_neg named, ← ih]
        split
        · rw [get?_cons, if_neg named]
        · rfl

/-- So has it lexically, unless it is qualified. -/
theorem lexical?_seen (b : Bindings) {s : Symbol} (read : reads s = true)
    : (seen V reads b).lexical? s = (b.lexical? s).map (Value.seen V) := by
  unfold lexical?
  rw [get?_seen b read]
  split <;> rfl

/-- To a reader of fewer names less is seen. -/
theorem seen_of_fewer (narrower : ∀ s, fewer s = true → reads s = true) (b : Bindings)
    : seen V fewer b = (seen V reads b).filter fun entry => fewer entry.1 || !V.drops entry.2 := by
  induction b with
  | nil => rfl
  | cons entry rest ih =>
      obtain ⟨s, v⟩ := entry
      rw [seen_cons, seen_cons, ih]
      by_cases shown : fewer s || !V.drops v
      · have before : (reads s || !V.drops v) = true := by
          have wider := narrower s
          simp only [Bool.or_eq_true] at shown ⊢
          exact shown.imp_left wider
        rw [if_pos shown, if_pos before, List.filter_cons_of_pos (by simpa using shown)]
      · rw [if_neg shown]
        split
        · rw [List.filter_cons_of_neg (by simpa using shown)]
        · rfl

/-- Bindings that are seen alike are so when less is read. -/
theorem same_of_fewer (same : seen V reads b = seen V reads b')
    (narrower : ∀ s, fewer s = true → reads s = true)
    : seen V fewer b = seen V fewer b' := by
  rw [seen_of_fewer narrower, seen_of_fewer narrower, same]

-----------------------------------------------------------------------------------------
-- Binding names
-----------------------------------------------------------------------------------------

/-- Bindings without a symbol are seen as those of which it is not read, without it. -/
theorem seen_erase (b : Bindings) (s : Symbol)
    : seen V reads (b.erase s) = (seen V (fun t => t != s && reads t) b).erase s := by
  unfold seen erase
  rw [List.filter_map, List.filter_filter, List.filter_filter]
  congr 1
  refine List.filter_congr fun entry _ => ?_
  cases kept : entry.1 != s <;> simp [kept]

/-- Bindings are seen alike without a symbol if they are when it is not read. -/
theorem erase_same {s : Symbol}
    (same : seen V (fun t => t != s && reads t) b = seen V (fun t => t != s && reads t) b')
    : seen V reads (b.erase s) = seen V reads (b'.erase s) := by
  rw [seen_erase, seen_erase, same]

/-- So are they without several symbols. Witness: induction on these. -/
theorem eraseAll_same {names : List Symbol}
    (same
      : seen V (fun t => !names.contains t && reads t) b
        = seen V (fun t => !names.contains t && reads t) b')
    : seen V reads (b.eraseAll names) = seen V reads (b'.eraseAll names) := by
  unfold eraseAll
  induction names generalizing b b' with
  | nil => simpa using same
  | cons s rest ih =>
      refine ih (erase_same (same_of_fewer same fun t read => ?_))
      simp_all

/-- So are they with values for a symbol that are seen alike. -/
theorem insert_same {s : Symbol} {v w : Value} (values : v.seen V = w.seen V)
    (same : seen V (fun t => t != s && reads t) b = seen V (fun t => t != s && reads t) b')
    : seen V reads (b.insert s v) = seen V reads (b'.insert s w) := by
  have dropped : V.drops v = V.drops w := by rw [← V.drops_seen v, values, V.drops_seen]
  unfold insert
  rw [seen_cons, seen_cons, erase_same same, values, dropped]

/-- Names that are bound to values that look alike may be read. -/
theorem bound_same (params : List Symbol) {args args' : List Value}
    (values : args.map (Value.seen V) = args'.map (Value.seen V))
    (same : seen V reads b = seen V reads b')
    : seen V reads ((params.zip args).foldl (fun b (s, v) => insert b s v) b)
      = seen V reads ((params.zip args').foldl (fun b (s, v) => insert b s v) b') := by
  induction params generalizing args args' b b' with
  | nil => exact same
  | cons s rest ih =>
      cases forall₂_of_map_eq values with
      | nil => exact same
      | cons first more =>
          refine ih ?_ (insert_same first (same_of_fewer same fun t read => by simp_all))
          rw [List.map_cons, List.map_cons] at values
          exact (List.cons.inj values).2

end Bindings

-----------------------------------------------------------------------------------------
-- Values of names
-----------------------------------------------------------------------------------------

/-- (b.Shows V reads β) says that the second bindings give to the names read what is seen of the
values that the first ones give to them.
-/
def Bindings.Shows (V : View) (reads : Symbol → Bool) (b β : Bindings)
    : Prop :=
  ∀ s, reads s = true → β.lexical? s = (b.lexical? s).map (Value.seen V)

namespace Bindings.Shows

variable {V : View} {reads fewer : Symbol → Bool} {b β : Bindings}

/-- Bindings show what they are seen as when less is read. -/
theorem mono (shows : Shows V reads b β) (narrower : ∀ s, fewer s = true → reads s = true)
    : Shows V fewer b β :=
  fun s read => shows s (narrower s read)

/-- They show it without some names. -/
theorem eraseAll {names : List Symbol} (shows : Shows V (fun s => !names.contains s && reads s) b β)
    : Shows V reads (b.eraseAll names) (β.eraseAll names) := by
  intro s read
  have known := shows s
  unfold lexical? at known ⊢
  rw [get?_eraseAll, get?_eraseAll]
  by_cases named : s ∈ names
  · simp [named]
  · rw [if_neg named, if_neg named]
    exact known (by simp [named, read])

/-- They show what they are seen as. -/
theorem of_seen (V : View) (reads : Symbol → Bool) (b : Bindings)
    : Shows V reads b (seen V reads b) :=
  fun _ read => lexical?_seen b read

end Bindings.Shows

end IncrementalLisp
