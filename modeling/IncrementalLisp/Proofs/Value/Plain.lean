import IncrementalLisp.Proofs.Value.Alike
import IncrementalLisp.Value.Collection

/-! Plain values: those without any function written in the language, expander or node. They refer
to no context and have no identity, so a value that is like a plain one is that very value.
-/

namespace IncrementalLisp

mutual

/-- Whether there is no function written in the language, expander or node in a value. -/
def Value.isPlain : Value → Bool
  | .list items _ => arePlain items
  | .vector items => arePlain items
  | .map entries => entriesArePlain entries
  | .set items => arePlain items
  | .function (.builtin _) => true
  | .function (.closure _) => false
  | .expander _ => false
  | .node _ => false
  | .nil => true
  | .bool _ => true
  | .int _ => true
  | .float _ => true
  | .char _ => true
  | .string _ => true
  | .symbol _ => true
  | .keyword _ => true
  | .type _ => true
termination_by structural v => v

/-- Whether all of some values are plain. -/
def arePlain : List Value → Bool
  | [] => true
  | v :: rest => v.isPlain && arePlain rest
termination_by structural vs => vs

/-- Whether all keys and values of some entries are plain. -/
def entriesArePlain : List (Value × Value) → Bool
  | [] => true
  | (k, v) :: rest => k.isPlain && v.isPlain && entriesArePlain rest
termination_by structural es => es

end

/-- Several values are plain if each of them is. Witness: induction on them. -/
theorem arePlain_eq_all (vs : List Value)
    : arePlain vs = vs.all Value.isPlain := by
  induction vs with
  | nil => rfl
  | cons v rest ih => rw [arePlain, List.all_cons, ih]

variable {M : Likeness}

-----------------------------------------------------------------------------------------
-- Plain values and likeness
-----------------------------------------------------------------------------------------

mutual

/-- Only a plain value itself is like it. Witness: induction on the value. -/
theorem Value.Alike.eq_of_plain
    : ∀ {v w : Value}, v.Alike M w → v.isPlain → w = v
  | .list _ _, _, ⟨_, same, alike⟩, plain => by rw [same, ValuesAlike.eq_of_plain alike plain]
  | .vector _, _, ⟨_, same, alike⟩, plain => by rw [same, ValuesAlike.eq_of_plain alike plain]
  | .map _, _, ⟨_, same, alike⟩, plain => by rw [same, EntriesAlike.eq_of_plain alike plain]
  | .set _, _, ⟨_, same, alike⟩, plain => by rw [same, ValuesAlike.eq_of_plain alike plain]
  | .function (.builtin _), _, ⟨_, same, alike⟩, _ => by rw [same, alike]
  | .nil, _, same, _ | .bool _, _, same, _ | .int _, _, same, _ | .float _, _, same, _
  | .char _, _, same, _ | .string _, _, same, _ | .symbol _, _, same, _
  | .keyword _, _, same, _ | .type _, _, same, _ => same
termination_by structural v => v

/-- Plain values are alike only if they are the same, by the first and the others. -/
theorem ValuesAlike.eq_of_plain
    : ∀ {vs ws : List Value}, ValuesAlike M vs ws → arePlain vs → ws = vs
  | [], _, same, _ => same
  | _ :: _, _, ⟨_, _, same, first, others⟩, plain => by
      rw [arePlain, Bool.and_eq_true] at plain
      rw [same, Value.Alike.eq_of_plain first plain.1, ValuesAlike.eq_of_plain others plain.2]
termination_by structural vs => vs

/-- So are plain entries. -/
theorem EntriesAlike.eq_of_plain
    : ∀ {es es' : List (Value × Value)}, EntriesAlike M es es' → entriesArePlain es → es' = es
  | [], _, same, _ => same
  | (_, _) :: _, _, ⟨_, _, _, same, key, value, others⟩, plain => by
      rw [entriesArePlain, Bool.and_eq_true, Bool.and_eq_true] at plain
      rw [same, Value.Alike.eq_of_plain key plain.1.1, Value.Alike.eq_of_plain value plain.1.2,
        EntriesAlike.eq_of_plain others plain.2]
termination_by structural es => es

end

mutual

/-- Of two alike values both are plain or neither. -/
theorem Value.Alike.isPlain_eq
    : ∀ {v w : Value}, v.Alike M w → w.isPlain = v.isPlain
  | .list _ _, _, ⟨_, same, alike⟩ => by
      rw [same, Value.isPlain, Value.isPlain, ValuesAlike.arePlain_eq alike]
  | .vector _, _, ⟨_, same, alike⟩ => by
      rw [same, Value.isPlain, Value.isPlain, ValuesAlike.arePlain_eq alike]
  | .map _, _, ⟨_, same, alike⟩ => by
      rw [same, Value.isPlain, Value.isPlain, EntriesAlike.entriesArePlain_eq alike]
  | .set _, _, ⟨_, same, alike⟩ => by
      rw [same, Value.isPlain, Value.isPlain, ValuesAlike.arePlain_eq alike]
  | .function (.builtin _), _, ⟨_, same, alike⟩ => by rw [same, alike]
  | .function (.closure _), _, ⟨_, same, _, closure, _⟩ => by
      rw [same, closure, Value.isPlain, Value.isPlain]
  | .expander _, _, ⟨_, same, _⟩ => by rw [same, Value.isPlain, Value.isPlain]
  | .node _, _, ⟨_, same, _⟩ => by rw [same, Value.isPlain, Value.isPlain]
  | .nil, _, same | .bool _, _, same | .int _, _, same | .float _, _, same | .char _, _, same
  | .string _, _, same | .symbol _, _, same | .keyword _, _, same | .type _, _, same => by
      rw [same]
termination_by structural v => v

/-- Values that are alike are plain together, by the first and the others. -/
theorem ValuesAlike.arePlain_eq
    : ∀ {vs ws : List Value}, ValuesAlike M vs ws → arePlain ws = arePlain vs
  | [], _, same => by rw [same]
  | _ :: _, _, ⟨_, _, same, first, others⟩ => by
      rw [same, arePlain, arePlain, Value.Alike.isPlain_eq first, ValuesAlike.arePlain_eq others]
termination_by structural vs => vs

/-- So are entries. -/
theorem EntriesAlike.entriesArePlain_eq
    : ∀ {es es' : List (Value × Value)},
        EntriesAlike M es es' → entriesArePlain es' = entriesArePlain es
  | [], _, same => by rw [same]
  | (_, _) :: _, _, ⟨_, _, _, same, key, value, others⟩ => by
      rw [same, entriesArePlain, entriesArePlain, Value.Alike.isPlain_eq key,
        Value.Alike.isPlain_eq value, EntriesAlike.entriesArePlain_eq others]
termination_by structural es => es

end

mutual

/-- A plain value refers to no context. Witness: induction on the value. -/
theorem Value.contexts_of_plain
    : ∀ {v : Value}, v.isPlain → v.contexts = []
  | .list _ _, plain => contextsOfAll_of_plain plain
  | .vector _, plain => contextsOfAll_of_plain plain
  | .map _, plain => contextsOfEntries_of_plain plain
  | .set _, plain => contextsOfAll_of_plain plain
  | .function (.builtin _), _ => rfl
  | .nil, _ | .bool _, _ | .int _, _ | .float _, _ | .char _, _ | .string _, _ | .symbol _, _
  | .keyword _, _ | .type _, _ => rfl
termination_by structural v => v

/-- Several plain values refer to none. -/
theorem contextsOfAll_of_plain
    : ∀ {vs : List Value}, arePlain vs → contextsOfAll vs = []
  | [], _ => rfl
  | _ :: _, plain => by
      rw [arePlain, Bool.and_eq_true] at plain
      rw [contextsOfAll, Value.contexts_of_plain plain.1, contextsOfAll_of_plain plain.2,
        List.nil_append]
termination_by structural vs => vs

/-- Plain entries refer to none. -/
theorem contextsOfEntries_of_plain
    : ∀ {es : List (Value × Value)}, entriesArePlain es → contextsOfEntries es = []
  | [], _ => rfl
  | (_, _) :: _, plain => by
      rw [entriesArePlain, Bool.and_eq_true, Bool.and_eq_true] at plain
      rw [contextsOfEntries, Value.contexts_of_plain plain.1.1, Value.contexts_of_plain plain.1.2,
        contextsOfEntries_of_plain plain.2, List.nil_append, List.nil_append]
termination_by structural es => es

end

/-- A plain value is like itself, whatever the likeness. -/
theorem Value.Alike.of_plain {v : Value} (plain : v.isPlain)
    : v.Alike M v := by
  apply Value.Alike.self
  rw [Value.contexts_of_plain plain]
  exact fun c absent => absurd absent List.not_mem_nil

-----------------------------------------------------------------------------------------
-- Equality with plain values
-----------------------------------------------------------------------------------------

/-- A value among plain ones is plain. -/
theorem isPlain_of_mem {vs : List Value} (plain : arePlain vs) {v : Value} (member : v ∈ vs)
    : v.isPlain := by
  rw [arePlain_eq_all, List.all_eq_true] at plain
  exact plain v member

/-- Entries are plain if each key and value is. Witness: induction on them. -/
theorem entriesArePlain_eq_all (es : List (Value × Value))
    : entriesArePlain es = es.all fun (k, v) => k.isPlain && v.isPlain := by
  induction es with
  | nil => rfl
  | cons entry rest ih => rw [entriesArePlain, List.all_cons, ih]

mutual

/-- A value that equals a plain one is plain. Witness: induction on the value. -/
theorem Value.isPlain_of_equal
    : ∀ {v w : Value}, Value.equal v w → w.isPlain → v.isPlain
  | .list _ _, w, same, plain => by
      cases w with
      | list | vector => exact arePlain_of_equalAll same plain
      | _ => cases same
  | .vector _, w, same, plain => by
      cases w with
      | list | vector => exact arePlain_of_equalAll same plain
      | _ => cases same
  | .map _, w, same, plain => by
      cases w with
      | map =>
          rw [Value.equal, Bool.and_eq_true] at same
          exact entriesArePlain_of_within same.2 plain
      | _ => cases same
  | .set _, w, same, plain => by
      cases w with
      | set =>
          rw [Value.equal, Bool.and_eq_true] at same
          exact arePlain_of_within same.2 plain
      | _ => cases same
  | .function (.builtin _), _, _, _ => rfl
  | .function (.closure _), w, same, plain => by
      cases w with
      | function g =>
          cases g with
          | builtin => cases same
          | closure => exact plain
      | _ => cases same
  | .expander _, w, same, plain => by
      cases w with
      | expander => exact plain
      | _ => cases same
  | .node _, w, same, plain => by
      cases w with
      | node => exact plain
      | _ => cases same
  | .nil, _, _, _ | .bool _, _, _, _ | .int _, _, _, _ | .float _, _, _, _ | .char _, _, _, _
  | .string _, _, _, _ | .symbol _, _, _, _ | .keyword _, _, _, _ | .type _, _, _, _ => rfl
termination_by structural v => v

/-- What is equal to plain values is plain, by the first and the others. -/
theorem arePlain_of_equalAll
    : ∀ {vs ws : List Value}, Value.equalAll vs ws → arePlain ws → arePlain vs
  | [], _, _, _ => rfl
  | _ :: _, ws, same, plain => by
      cases ws with
      | nil => cases same
      | cons w others =>
          rw [Value.equalAll, Bool.and_eq_true] at same
          rw [arePlain, Bool.and_eq_true] at plain ⊢
          exact ⟨Value.isPlain_of_equal same.1 plain.1, arePlain_of_equalAll same.2 plain.2⟩
termination_by structural vs => vs

/-- Items within plain ones are plain. -/
theorem arePlain_of_within
    : ∀ {vs ws : List Value}, Value.itemsWithin vs ws → arePlain ws → arePlain vs
  | [], _, _, _ => rfl
  | _ :: _, _, within, plain => by
      rw [Value.itemsWithin, Bool.and_eq_true, List.any_eq_true] at within
      obtain ⟨⟨w, member, same⟩, others⟩ := within
      rw [arePlain, Bool.and_eq_true]
      exact ⟨Value.isPlain_of_equal same (isPlain_of_mem plain member),
        arePlain_of_within others plain⟩
termination_by structural vs => vs

/-- Entries within plain ones are plain. -/
theorem entriesArePlain_of_within
    : ∀ {es es' : List (Value × Value)},
        Value.entriesWithin es es' → entriesArePlain es' → entriesArePlain es
  | [], _, _, _ => rfl
  | (_, _) :: _, es', within, plain => by
      rw [Value.entriesWithin, Bool.and_eq_true, List.any_eq_true] at within
      obtain ⟨⟨⟨k, v⟩, member, same⟩, others⟩ := within
      have all := plain
      rw [entriesArePlain_eq_all, List.all_eq_true] at all
      have entry := all (k, v) member
      rw [Bool.and_eq_true] at same entry
      rw [entriesArePlain, Bool.and_eq_true, Bool.and_eq_true]
      exact ⟨⟨Value.isPlain_of_equal same.1 entry.1, Value.isPlain_of_equal same.2 entry.2⟩,
        entriesArePlain_of_within others plain⟩
termination_by structural es => es

end

/-- Alike values are equal to the same plain values. Witness: a value that is not plain equals
none of them, and one that is plain is like itself alone.
-/
theorem Value.Alike.beq_eq {v w key : Value} (alike : v.Alike M w) (plain : key.isPlain)
    : (w == key) = (v == key) := by
  by_cases inner : v.isPlain
  · rw [alike.eq_of_plain inner]
  · have differ {u : Value} (rough : ¬u.isPlain) : (u == key) = false := by
      rw [Bool.eq_false_iff]
      exact fun same => rough (Value.isPlain_of_equal same plain)
    have outer : ¬w.isPlain := by
      rw [alike.isPlain_eq]
      exact inner
    rw [differ inner, differ outer]

end IncrementalLisp
