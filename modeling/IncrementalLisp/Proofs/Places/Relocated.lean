import IncrementalLisp.Proofs.Places.Value

/-! Forms at other places. Only lists know where they were read, so a form is read from another
place by another place for each list in it. Such a form is equal to the one before, and making the
items of a set distinct or putting entries into a map does not see the difference.
-/

namespace IncrementalLisp

/-- The place that is a number of lines below. -/
def Location.below (lines : Nat) (l : Location)
    : Location :=
  { l with line := l.line + lines }

/-- The place after a character, lines below, is the place lines below the one after it. -/
theorem Location.below_after (lines : Nat) (l : Location) (c : Char)
    : (l.after c).below lines = (l.below lines).after c := by
  unfold after below
  split
  · rw [Nat.add_right_comm]
  · rfl

variable (f : Location → Location)

mutual

/-- A form with another place for each list in it. -/
def Value.relocated : Value → Value
  | .list items source => .list (relocatedAll items) (source.map f)
  | .vector items => .vector (relocatedAll items)
  | .map entries => .map (relocatedEntries entries)
  | .set items => .set (relocatedAll items)
  | v => v
termination_by structural v => v

/-- Several forms with other places. -/
def relocatedAll : List Value → List Value
  | [] => []
  | v :: rest => v.relocated :: relocatedAll rest
termination_by structural vs => vs

/-- Entries whose keys and values have other places. -/
def relocatedEntries : List (Value × Value) → List (Value × Value)
  | [] => []
  | (k, v) :: rest => (k.relocated, v.relocated) :: relocatedEntries rest
termination_by structural es => es

end

/-- Several values are moved one by one. Witness: induction on them. -/
theorem relocatedAll_eq_map (vs : List Value)
    : relocatedAll f vs = vs.map (Value.relocated f) := by
  induction vs with
  | nil => rfl
  | cons v rest ih => rw [relocatedAll, ih, List.map_cons]

/-- Entries are moved by their keys and values. Witness: induction on them. -/
theorem relocatedEntries_eq_map (es : List (Value × Value))
    : relocatedEntries f es = es.map (Prod.map (Value.relocated f) (Value.relocated f)) := by
  induction es with
  | nil => rfl
  | cons e rest ih =>
      rw [relocatedEntries, ih]
      rfl

mutual

/-- A value that is moved nowhere is itself. Witness: induction on it. -/
theorem Value.relocated_self
    : ∀ v : Value, v.relocated id = v
  | .list items source => by
      rw [Value.relocated, relocatedAll_self items, Option.map_id]
      rfl
  | .vector items => by rw [Value.relocated, relocatedAll_self items]
  | .map entries => by rw [Value.relocated, relocatedEntries_self entries]
  | .set items => by rw [Value.relocated, relocatedAll_self items]
  | .nil | .bool _ | .int _ | .float _ | .char _ | .string _ | .symbol _ | .keyword _
  | .function _ | .expander _ | .node _ | .type _ => rfl
termination_by structural v => v

/-- So are several values. -/
theorem relocatedAll_self
    : ∀ vs : List Value, relocatedAll id vs = vs
  | [] => rfl
  | v :: rest => by rw [relocatedAll, Value.relocated_self v, relocatedAll_self rest]
termination_by structural vs => vs

/-- So are the keys and values of entries. -/
theorem relocatedEntries_self
    : ∀ es : List (Value × Value), relocatedEntries id es = es
  | [] => rfl
  | (k, v) :: rest => by
      rw [relocatedEntries, Value.relocated_self k, Value.relocated_self v,
        relocatedEntries_self rest]
termination_by structural es => es

end

/-- Where places stay, so do forms. -/
theorem Value.relocated_id
    : Value.relocated id = id :=
  funext Value.relocated_self

-----------------------------------------------------------------------------------------
-- The same without places
-----------------------------------------------------------------------------------------

mutual

/-- Forms that differ only in places are the same without them. Witness: induction on the form. -/
theorem Value.unplaced_relocated
    : ∀ v : Value, (v.relocated f).unplaced = v.unplaced
  | .list items source => by
      rw [Value.relocated, Value.unplaced, Value.unplaced, unplacedAll_relocatedAll items]
      cases source <;> rfl
  | .vector items => by
      rw [Value.relocated, Value.unplaced, Value.unplaced, unplacedAll_relocatedAll items]
  | .map entries => by
      rw [Value.relocated, Value.unplaced, Value.unplaced,
        unplacedEntries_relocatedEntries entries]
  | .set items => by
      rw [Value.relocated, Value.unplaced, Value.unplaced, unplacedAll_relocatedAll items]
  | .nil | .bool _ | .int _ | .float _ | .char _ | .string _ | .symbol _ | .keyword _
  | .function _ | .expander _ | .node _ | .type _ => rfl
termination_by structural v => v

/-- Moved values are the same without places, one by one. -/
theorem unplacedAll_relocatedAll
    : ∀ vs : List Value, unplacedAll (relocatedAll f vs) = unplacedAll vs
  | [] => rfl
  | v :: rest => by
      rw [relocatedAll, unplacedAll, unplacedAll, Value.unplaced_relocated v,
        unplacedAll_relocatedAll rest]
termination_by structural vs => vs

/-- So are moved entries. -/
theorem unplacedEntries_relocatedEntries
    : ∀ es : List (Value × Value), unplacedEntries (relocatedEntries f es) = unplacedEntries es
  | [] => rfl
  | (k, v) :: rest => by
      rw [relocatedEntries, unplacedEntries, unplacedEntries, Value.unplaced_relocated k,
        Value.unplaced_relocated v, unplacedEntries_relocatedEntries rest]
termination_by structural es => es

end

-----------------------------------------------------------------------------------------
-- Collections of forms
-----------------------------------------------------------------------------------------

namespace Value

/-- Moved values are equal if the values are, since equality ignores places. -/
theorem beq_relocated (v w : Value)
    : (v.relocated f == w.relocated f) = (v == w) := by
  rw [← beq_unplaced, unplaced_relocated, unplaced_relocated, beq_unplaced]

/-- A set of moved items is the moved set, since the same items are equal. -/
theorem setOf_relocated (a : Arrangement) (items : List Value)
    : setOf a (items.map (relocated f)) = (setOf a items).relocated f := by
  rw [setOf, setOf, relocated, relocatedAll_eq_map, distinct_map (beq_relocated f)]

/-- A map of moved keys and values is the moved map. -/
theorem mapOf_pairs_relocated (a : Arrangement) (items : List Value)
    : mapOf a (pairs (items.map (relocated f))) = (mapOf a (pairs items)).relocated f := by
  rw [mapOf, mapOf, relocated, relocatedEntries_eq_map, pairs_map,
    distinctEntries_map (beq_relocated f)]

end Value

end IncrementalLisp
