import IncrementalLisp.Proofs.Value.Plain
import IncrementalLisp.Value.Hash

/-! Likenesses that keep identities: values are compared alike by what they are alike to.
-/

namespace IncrementalLisp

/-- (M.Exact) says that alike values have the same identities and the same contexts. -/
structure Likeness.Exact (M : Likeness) : Prop where
  identity : ∀ {i j}, M.identity i j → j = i
  context : ∀ {names c d}, M.context names c d ↔ d = c

variable {M : Likeness}

/-- An exact likeness fixes all contexts. -/
theorem Likeness.Exact.fixed (exact : M.Exact) (contexts : List ContextId)
    : Fixed M contexts :=
  fun _ _ _ => exact.context.mpr rfl

/-- So a value is like itself. -/
theorem Value.Alike.refl (exact : M.Exact) (v : Value)
    : v.Alike M v :=
  .self (exact.fixed _)

/-- So is a node. -/
theorem Node.Alike.refl (exact : M.Exact) (n : Node)
    : n.Alike M n :=
  .self (exact.fixed _)

/-- So are bindings. -/
theorem BindingsAlike.refl (exact : M.Exact) (b : Bindings)
    : BindingsAlike M b b :=
  .self (exact.fixed _)

/-- Closures that are alike have the same identity. -/
theorem Closure.Alike.identity_eq (exact : M.Exact) {f g : Closure} (alike : f.Alike M g)
    : g.identity = f.identity := by
  obtain ⟨_, _, _, _, _, _⟩ := f
  exact Option.some.inj (exact.identity alike.1)

/-- So have expanders of users. -/
theorem UserExpander.Alike.identity_eq (exact : M.Exact) {u v : UserExpander} (alike : u.Alike M v)
    : v.identity = u.identity := by
  obtain ⟨_, _, _, _, _⟩ := u
  exact Option.some.inj (exact.identity alike.1)

/-- So have macros. -/
theorem Macro.Alike.identity_eq (exact : M.Exact) {m n : Macro} (alike : m.Alike M n)
    : n.identity = m.identity := by
  obtain ⟨_, _⟩ := m
  exact Option.some.inj (exact.identity alike.1)

/-- So have nodes, if they have any. -/
theorem Node.Alike.identity_eq (exact : M.Exact) {n m : Node} (alike : n.Alike M m)
    : m.identity = n.identity := by
  obtain ⟨_, _, _, _⟩ := n
  exact exact.identity alike.2.2

/-- Functions that are alike are the same as functions that are alike together, by their kind. -/
theorem Function.Alike.same_eq (exact : M.Exact) {f f' g g' : Function} (alike : f.Alike M f')
    (other : g.Alike M g')
    : f'.same g' = f.same g := by
  cases f with
  | builtin =>
      obtain rfl := alike
      cases g with
      | builtin =>
          obtain rfl := other
          rfl
      | closure =>
          obtain ⟨_, rfl, _⟩ := other
          rfl
  | closure f =>
      obtain ⟨f', rfl, inner⟩ := alike
      cases g with
      | builtin =>
          obtain rfl := other
          rfl
      | closure g =>
          obtain ⟨g', rfl, outer⟩ := other
          unfold Function.same
          dsimp only
          rw [inner.identity_eq exact, outer.identity_eq exact]

/-- So are expanders. -/
theorem Expander.Alike.same_eq (exact : M.Exact) {e e' k k' : Expander} (alike : e.Alike M e')
    (other : k.Alike M k')
    : e'.same k' = e.same k := by
  cases e with
  | initial =>
      obtain ⟨_, rfl, _⟩ := alike
      cases k with
      | form =>
          obtain rfl := other
          rfl
      | initial | ofUser | ofMacro =>
          obtain ⟨_, rfl, _⟩ := other
          rfl
  | form =>
      obtain rfl := alike
      cases k with
      | form =>
          obtain rfl := other
          rfl
      | initial | ofUser | ofMacro =>
          obtain ⟨_, rfl, _⟩ := other
          rfl
  | ofUser u =>
      obtain ⟨u', rfl, inner⟩ := alike
      cases k with
      | form =>
          obtain rfl := other
          rfl
      | ofUser v =>
          obtain ⟨v', rfl, outer⟩ := other
          unfold Expander.same
          dsimp only
          rw [inner.identity_eq exact, outer.identity_eq exact]
      | initial | ofMacro =>
          obtain ⟨_, rfl, _⟩ := other
          rfl
  | ofMacro m =>
      obtain ⟨m', rfl, inner⟩ := alike
      cases k with
      | form =>
          obtain rfl := other
          rfl
      | initial | ofUser =>
          obtain ⟨_, rfl, _⟩ := other
          rfl
      | ofMacro n =>
          obtain ⟨n', rfl, outer⟩ := other
          unfold Expander.same
          dsimp only
          rw [inner.identity_eq exact, outer.identity_eq exact]

/-- So are nodes, by their identities. -/
theorem Node.Alike.same_eq (exact : M.Exact) {n n' m m' : Node} (alike : n.Alike M n')
    (other : m.Alike M m')
    : n'.same m' = n.same m := by
  unfold Node.same
  rw [alike.identity_eq exact, other.identity_eq exact]

/-- A test of values that pairs of alike lists decide alike. -/
theorem ValuesAlike.any_eq {test test' : Value → Bool}
    (same : ∀ {w w'}, w.Alike M w' → test' w' = test w)
    {ws ws' : List Value} (alike : ValuesAlike M ws ws')
    : ws'.any test' = ws.any test := by
  induction ws generalizing ws' with
  | nil =>
      obtain rfl := alike
      rfl
  | cons w rest ih =>
      obtain ⟨w', others, rfl, first, last⟩ := alike
      rw [List.any_cons, List.any_cons, same first, ih last]

/-- A test holds of one of several entries alike if it holds of each of them alike. Witness:
induction on the entries.
-/
theorem EntriesAlike.any_eq {test test' : Value × Value → Bool}
    (same : ∀ {k k' v v'}, k.Alike M k' → v.Alike M v' → test' (k', v') = test (k, v))
    {es es' : List (Value × Value)} (alike : EntriesAlike M es es')
    : es'.any test' = es.any test := by
  induction es generalizing es' with
  | nil =>
      obtain rfl := alike
      rfl
  | cons entry rest ih =>
      obtain ⟨k, v⟩ := entry
      obtain ⟨k', v', others, rfl, key, value, last⟩ := alike
      rw [List.any_cons, List.any_cons, same key value, ih last]

/-- There are as many values as values that are alike. Witness: induction on them. -/
theorem ValuesAlike.length_eq {vs ws : List Value} (alike : ValuesAlike M vs ws)
    : ws.length = vs.length := by
  induction vs generalizing ws with
  | nil =>
      obtain rfl := alike
      rfl
  | cons v rest ih =>
      obtain ⟨w, others, rfl, _, last⟩ := alike
      rw [List.length_cons, List.length_cons, ih last]

/-- There are as many entries as entries that are alike. Witness: induction on them. -/
theorem EntriesAlike.length_eq {es es' : List (Value × Value)} (alike : EntriesAlike M es es')
    : es'.length = es.length := by
  induction es generalizing es' with
  | nil =>
      obtain rfl := alike
      rfl
  | cons entry rest ih =>
      obtain ⟨_, _⟩ := entry
      obtain ⟨k, v, others, rfl, _, _, last⟩ := alike
      rw [List.length_cons, List.length_cons, ih last]

mutual

/-- Pairs of alike values are equal or not alike. Witness: induction on the first value. -/
theorem Value.Alike.equal_eq (exact : M.Exact)
    : ∀ {v v' w w' : Value}, v.Alike M v' → w.Alike M w' → Value.equal v' w' = Value.equal v w
  | .list _ _, _, w, _, ⟨_, same, items⟩, other => by
      rw [same]
      cases w with
      | list | vector =>
          obtain ⟨_, rfl, others⟩ := other
          exact ValuesAlike.equalAll_eq exact items others
      | map | set | function | expander | node =>
          obtain ⟨_, rfl, _⟩ := other
          rfl
      | _ =>
          obtain rfl := other
          rfl
  | .vector _, _, w, _, ⟨_, same, items⟩, other => by
      rw [same]
      cases w with
      | list | vector =>
          obtain ⟨_, rfl, others⟩ := other
          exact ValuesAlike.equalAll_eq exact items others
      | map | set | function | expander | node =>
          obtain ⟨_, rfl, _⟩ := other
          rfl
      | _ =>
          obtain rfl := other
          rfl
  | .map _, _, w, _, ⟨_, same, entries⟩, other => by
      rw [same]
      cases w with
      | map =>
          obtain ⟨_, rfl, others⟩ := other
          rw [Value.equal, Value.equal, entries.length_eq, others.length_eq,
            EntriesAlike.entriesWithin_eq exact entries others]
      | list | vector | set | function | expander | node =>
          obtain ⟨_, rfl, _⟩ := other
          rfl
      | _ =>
          obtain rfl := other
          rfl
  | .set _, _, w, _, ⟨_, same, items⟩, other => by
      rw [same]
      cases w with
      | set =>
          obtain ⟨_, rfl, others⟩ := other
          rw [Value.equal, Value.equal, items.length_eq, others.length_eq,
            ValuesAlike.itemsWithin_eq exact items others]
      | list | vector | map | function | expander | node =>
          obtain ⟨_, rfl, _⟩ := other
          rfl
      | _ =>
          obtain rfl := other
          rfl
  | .function _, _, w, _, ⟨_, same, inner⟩, other => by
      rw [same]
      cases w with
      | function =>
          obtain ⟨_, rfl, outer⟩ := other
          exact inner.same_eq exact outer
      | list | vector | map | set | expander | node =>
          obtain ⟨_, rfl, _⟩ := other
          rfl
      | _ =>
          obtain rfl := other
          rfl
  | .expander _, _, w, _, ⟨_, same, inner⟩, other => by
      rw [same]
      cases w with
      | expander =>
          obtain ⟨_, rfl, outer⟩ := other
          exact inner.same_eq exact outer
      | list | vector | map | set | function | node =>
          obtain ⟨_, rfl, _⟩ := other
          rfl
      | _ =>
          obtain rfl := other
          rfl
  | .node _, _, w, _, ⟨_, same, inner⟩, other => by
      rw [same]
      cases w with
      | node =>
          obtain ⟨_, rfl, outer⟩ := other
          exact inner.same_eq exact outer
      | list | vector | map | set | function | expander =>
          obtain ⟨_, rfl, _⟩ := other
          rfl
      | _ =>
          obtain rfl := other
          rfl
  | .nil, _, w, _, same, other | .bool _, _, w, _, same, other | .int _, _, w, _, same, other
  | .float _, _, w, _, same, other | .char _, _, w, _, same, other | .string _, _, w, _, same, other
  | .symbol _, _, w, _, same, other | .keyword _, _, w, _, same, other
  | .type _, _, w, _, same, other => by
      rw [same]
      cases w with
      | list | vector | map | set | function | expander | node =>
          obtain ⟨_, rfl, _⟩ := other
          rfl
      | _ =>
          obtain rfl := other
          rfl
termination_by structural v => v

/-- Values that are alike are all equal together, by the first and the others. -/
theorem ValuesAlike.equalAll_eq (exact : M.Exact)
    : ∀ {vs vs' ws ws' : List Value}, ValuesAlike M vs vs' → ValuesAlike M ws ws'
        → Value.equalAll vs' ws' = Value.equalAll vs ws
  | [], _, ws, _, same, others => by
      rw [same]
      cases ws with
      | nil =>
          obtain rfl := others
          rfl
      | cons =>
          obtain ⟨_, _, rfl, _⟩ := others
          rfl
  | _ :: _, _, ws, _, ⟨_, _, same, first, rest⟩, others => by
      rw [same]
      cases ws with
      | nil =>
          obtain rfl := others
          rfl
      | cons =>
          obtain ⟨_, _, rfl, second, more⟩ := others
          rw [Value.equalAll, Value.equalAll, Value.Alike.equal_eq exact first second,
            ValuesAlike.equalAll_eq exact rest more]
termination_by structural vs => vs

/-- Items that are alike are within items that are together. -/
theorem ValuesAlike.itemsWithin_eq (exact : M.Exact)
    : ∀ {vs vs' ws ws' : List Value}, ValuesAlike M vs vs' → ValuesAlike M ws ws'
        → Value.itemsWithin vs' ws' = Value.itemsWithin vs ws
  | [], _, _, _, same, _ => by rw [same]; rfl
  | _ :: _, _, _, _, ⟨_, _, same, first, rest⟩, others => by
      rw [same, Value.itemsWithin, Value.itemsWithin,
        others.any_eq fun second => Value.Alike.equal_eq exact first second,
        ValuesAlike.itemsWithin_eq exact rest others]
termination_by structural vs => vs

/-- So are entries. -/
theorem EntriesAlike.entriesWithin_eq (exact : M.Exact)
    : ∀ {es es' fs fs' : List (Value × Value)}, EntriesAlike M es es' → EntriesAlike M fs fs'
        → Value.entriesWithin es' fs' = Value.entriesWithin es fs
  | [], _, _, _, same, _ => by rw [same]; rfl
  | (_, _) :: _, _, _, _, ⟨_, _, _, same, key, value, rest⟩, others => by
      rw [same, Value.entriesWithin, Value.entriesWithin,
        EntriesAlike.entriesWithin_eq exact rest others]
      refine congrArg (· && _) (others.any_eq fun keys values => ?_)
      dsimp only
      rw [Value.Alike.equal_eq exact key keys, Value.Alike.equal_eq exact value values]
termination_by structural es => es

end

-----------------------------------------------------------------------------------------
-- Hashes
-----------------------------------------------------------------------------------------

/-- Functions that are alike have the same words to hash, by their kind. -/
theorem Function.Alike.hashWords_eq (exact : M.Exact) {f g : Function} (alike : f.Alike M g)
    : g.hashWords = f.hashWords := by
  cases f with
  | builtin =>
      obtain rfl := alike
      rfl
  | closure =>
      obtain ⟨_, rfl, inner⟩ := alike
      rw [Function.hashWords, Function.hashWords, inner.identity_eq exact]

/-- So have expanders. -/
theorem Expander.Alike.hashWords_eq (exact : M.Exact) {e k : Expander} (alike : e.Alike M k)
    : k.hashWords = e.hashWords := by
  cases e with
  | initial =>
      obtain ⟨_, rfl, _⟩ := alike
      rfl
  | form =>
      obtain rfl := alike
      rfl
  | ofUser =>
      obtain ⟨_, rfl, inner⟩ := alike
      rw [Expander.hashWords, Expander.hashWords, inner.identity_eq exact]
  | ofMacro =>
      obtain ⟨_, rfl, inner⟩ := alike
      rw [Expander.hashWords, Expander.hashWords, inner.identity_eq exact]

variable {digest : Digest}

mutual

/-- Alike values have the same hash when identities are kept. Witness: induction on the value. -/
theorem Value.Alike.hashWords_eq (exact : M.Exact)
    : ∀ {v w : Value}, v.Alike M w → w.hashWords digest = v.hashWords digest
  | .list _ _, _, ⟨_, same, items⟩ | .vector _, _, ⟨_, same, items⟩ => by
      rw [same, Value.hashWords, Value.hashWords, items.length_eq,
        ValuesAlike.hashWordsOfAll_eq exact items]
  | .map _, _, ⟨_, same, entries⟩ => by
      rw [same, Value.hashWords, Value.hashWords, entries.length_eq,
        EntriesAlike.sumOfEntries_eq exact entries]
  | .set _, _, ⟨_, same, items⟩ => by
      rw [same, Value.hashWords, Value.hashWords, items.length_eq,
        ValuesAlike.sumOfItems_eq exact items]
  | .function _, _, ⟨_, same, inner⟩ => by
      rw [same, Value.hashWords, Value.hashWords, inner.hashWords_eq exact]
  | .expander _, _, ⟨_, same, inner⟩ => by
      rw [same, Value.hashWords, Value.hashWords, inner.hashWords_eq exact]
  | .node _, _, ⟨_, same, inner⟩ => by
      rw [same, Value.hashWords, Value.hashWords, inner.identity_eq exact]
  | .nil, _, same | .bool _, _, same | .int _, _, same | .float _, _, same | .char _, _, same
  | .string _, _, same | .symbol _, _, same | .keyword _, _, same | .type _, _, same => by
      rw [same]
termination_by structural v => v

/-- Several values that are alike have the same words to hash, by the first and the others. -/
theorem ValuesAlike.hashWordsOfAll_eq (exact : M.Exact)
    : ∀ {vs ws : List Value}, ValuesAlike M vs ws
        → Value.hashWordsOfAll digest ws = Value.hashWordsOfAll digest vs
  | [], _, same => by rw [same]
  | _ :: _, _, ⟨_, _, same, first, rest⟩ => by
      rw [same, Value.hashWordsOfAll, Value.hashWordsOfAll, Value.Alike.hashWords_eq exact first,
        ValuesAlike.hashWordsOfAll_eq exact rest]
termination_by structural vs => vs

/-- The items of sets that are alike have the same sum. -/
theorem ValuesAlike.sumOfItems_eq (exact : M.Exact)
    : ∀ {vs ws : List Value}, ValuesAlike M vs ws → Value.sumOfItems digest ws
      = Value.sumOfItems digest vs
  | [], _, same => by rw [same]
  | _ :: _, _, ⟨_, _, same, first, rest⟩ => by
      rw [same, Value.sumOfItems, Value.sumOfItems, Value.Alike.hashWords_eq exact first,
        ValuesAlike.sumOfItems_eq exact rest]
termination_by structural vs => vs

/-- So have the entries of maps. -/
theorem EntriesAlike.sumOfEntries_eq (exact : M.Exact)
    : ∀ {es es' : List (Value × Value)}, EntriesAlike M es es'
        → Value.sumOfEntries digest es' = Value.sumOfEntries digest es
  | [], _, same => by rw [same]
  | (_, _) :: _, _, ⟨_, _, _, same, key, value, rest⟩ => by
      rw [same, Value.sumOfEntries, Value.sumOfEntries, Value.Alike.hashWords_eq exact key,
        Value.Alike.hashWords_eq exact value, EntriesAlike.sumOfEntries_eq exact rest]
termination_by structural es => es

end

/-- Values that are alike have the same hash. -/
theorem Value.Alike.hashCode_eq (exact : M.Exact) {v w : Value} (alike : v.Alike M w)
    : w.hashCode digest = v.hashCode digest := by
  unfold Value.hashCode
  rw [alike.hashWords_eq exact]

-----------------------------------------------------------------------------------------
-- Values that are compared alike
-----------------------------------------------------------------------------------------

/-- (Value.Comparable M key key') says that the values are alike, and that alike values are equal
to the first and to the second alike.
-/
structure Value.Comparable (M : Likeness) (key key' : Value) : Prop where
  alike : key.Alike M key'
  beq_eq : ∀ {v w : Value}, v.Alike M w → (w == key') = (v == key)

/-- A plain key compares like itself. -/
theorem Value.Comparable.of_plain {key : Value} (plain : key.isPlain)
    : key.Comparable M key :=
  ⟨.of_plain plain, fun alike => alike.beq_eq plain⟩

/-- Keys that are exactly alike compare alike. -/
theorem Value.Comparable.of_exact (exact : M.Exact) {key key' : Value} (alike : key.Alike M key')
    : key.Comparable M key' :=
  ⟨alike, fun other => other.equal_eq exact alike⟩

/-- Two alike values of which one is plain, or which a likeness that keeps identities relates. -/
theorem Value.Alike.comparable {key key' : Value} (alike : key.Alike M key')
    (known : key'.isPlain ∨ M.Exact)
    : key.Comparable M key' := by
  rcases known with plain | exact
  · rw [alike.isPlain_eq] at plain
    rw [alike.eq_of_plain plain]
    exact .of_plain plain
  · exact .of_exact exact alike

end IncrementalLisp
