import IncrementalLisp.Proofs.View.Basic
import IncrementalLisp.Value.Collection
import IncrementalLisp.Value.Hash
import IncrementalLisp.Value.Printer

/-! What a view leaves out of values is not printed, and it matters neither to equality nor to
hashing: functions and expanders are printed without what they captured and are compared by
identity.
-/

namespace IncrementalLisp

variable {V : View}

-----------------------------------------------------------------------------------------
-- Printing
-----------------------------------------------------------------------------------------

mutual

/-- What a view leaves out is not printed. Witness: induction on the value. -/
@[simp] theorem Value.repr_seen
    : ∀ v : Value, (v.seen V).repr = v.repr
  | .list items _ => by rw [Value.seen, Value.repr, Value.repr, reprsOf_seenAll items]
  | .vector items => by rw [Value.seen, Value.repr, Value.repr, reprsOf_seenAll items]
  | .map entries => by
      rw [Value.seen, Value.repr, Value.repr, reprsOfEntries_seenEntries entries]
  | .set items => by rw [Value.seen, Value.repr, Value.repr, reprsOf_seenAll items]
  | .function (.builtin _) => rfl
  | .function (.closure ⟨_, _, _, _, _, _⟩) => rfl
  | .expander (.ofUser ⟨_, _, _, _, _⟩) => rfl
  | .expander (.initial _) | .expander (.form _) | .expander (.ofMacro _) => rfl
  | .node n => by rw [Value.seen, Value.repr, Value.repr, Node.repr_seen n]
  | .nil | .bool _ | .int _ | .float _ | .char _ | .string _ | .symbol _ | .keyword _
  | .type _ => rfl
termination_by structural v => v

/-- Several values have the readable forms that they are seen with, by the first and the others. -/
theorem reprsOf_seenAll
    : ∀ vs : List Value, reprsOf (seenAll V vs) = reprsOf vs
  | [] => rfl
  | v :: rest => by
      rw [seenAll, reprsOf, reprsOf, Value.repr_seen v, reprsOf_seenAll rest]
termination_by structural vs => vs

/-- So have entries. -/
theorem reprsOfEntries_seenEntries
    : ∀ es : List (Value × Value), reprsOfEntries (seenEntries V es) = reprsOfEntries es
  | [] => rfl
  | (k, v) :: rest => by
      rw [seenEntries, reprsOfEntries, reprsOfEntries, Value.repr_seen k,
        Value.repr_seen v, reprsOfEntries_seenEntries rest]
termination_by structural es => es

/-- So has a node, by its shape. -/
theorem Node.repr_seen
    : ∀ n : Node, (n.seen V).repr = n.repr
  | ⟨shape, _, _, _⟩ => by rw [Node.seen, Node.repr, Node.repr, Shape.repr_seen shape]
termination_by structural n => n

/-- So has a shape, part by part. -/
theorem Shape.repr_seen
    : ∀ s : Shape, (s.seen V).repr = s.repr
  | .constant v => by rw [Shape.seen, Shape.repr, Shape.repr, Value.repr_seen v]
  | .lookup _ => rfl
  | .apply f args => by
      rw [Shape.seen, Shape.repr, Shape.repr, Node.repr_seen f,
        nodeReprs_seenNodes args]
  | .define _ expr => by rw [Shape.seen, Shape.repr, Shape.repr, Node.repr_seen expr]
  | .sequence body => by
      rw [Shape.seen, Shape.repr, Shape.repr, nodeReprs_seenNodes body]
  | .conditional test yes no => by
      rw [Shape.seen, Shape.repr, Shape.repr, Node.repr_seen test,
        Node.repr_seen yes, Node.repr_seen no]
  | .binding pairs body => by
      rw [Shape.seen, Shape.repr, Shape.repr, pairReprs_seenPairs pairs,
        Node.repr_seen body]
  | .lambda _ none body => by
      rw [Shape.seen, Shape.repr, Shape.repr, Node.repr_seen body]
  | .lambda _ (some _) body => by
      rw [Shape.seen, Shape.repr, Shape.repr, Node.repr_seen body]
  | .expander _ _ body => by
      rw [Shape.seen, Shape.repr, Shape.repr, Node.repr_seen body]
  | .quote form _ => by rw [Shape.seen, Shape.repr, Shape.repr, Value.repr_seen form]
  | .vector items => by
      rw [Shape.seen, Shape.repr, Shape.repr, nodeReprs_seenNodes items]
  | .list items => by
      rw [Shape.seen, Shape.repr, Shape.repr, nodeReprs_seenNodes items]
  | .hashMap items => by
      rw [Shape.seen, Shape.repr, Shape.repr, nodeReprs_seenNodes items]
  | .set items => by
      rw [Shape.seen, Shape.repr, Shape.repr, nodeReprs_seenNodes items]
  | .invoke target _ args => by
      rw [Shape.seen, Shape.repr, Shape.repr, Node.repr_seen target,
        nodeReprs_seenNodes args]
  | .invokeStatic _ _ args => by
      rw [Shape.seen, Shape.repr, Shape.repr, nodeReprs_seenNodes args]
  | .cast _ expr => by rw [Shape.seen, Shape.repr, Shape.repr, Node.repr_seen expr]
  | .instanceOf type expr => by
      rw [Shape.seen, Shape.repr, Shape.repr, Node.repr_seen type,
        Node.repr_seen expr]
termination_by structural s => s

/-- So have several nodes. -/
theorem nodeReprs_seenNodes
    : ∀ ns : List Node, nodeReprs (seenNodes V ns) = nodeReprs ns
  | [] => rfl
  | n :: rest => by
      rw [seenNodes, nodeReprs, nodeReprs, Node.repr_seen n, nodeReprs_seenNodes rest]
termination_by structural ns => ns

/-- So have pairs. -/
theorem pairReprs_seenPairs
    : ∀ ps : List (Symbol × Node), pairReprs (seenPairs V ps) = pairReprs ps
  | [] => rfl
  | (_, n) :: rest => by
      rw [seenPairs, pairReprs, pairReprs, Node.repr_seen n, pairReprs_seenPairs rest]
termination_by structural ps => ps

end

/-- A value has the text that it is seen with. -/
@[simp] theorem Value.text_seen (v : Value)
    : (v.seen V).text = v.text := by
  cases v with
  | string | char => rfl
  | _ => exact Value.repr_seen _

-----------------------------------------------------------------------------------------
-- Equality and hashing
-----------------------------------------------------------------------------------------

/-- Functions are seen to be the same if they are. -/
theorem Function.same_seen (f g : Function)
    : (f.seen V).same (g.seen V) = f.same g := by
  cases f <;> cases g <;> simp [Function.same]

/-- So are expanders. -/
theorem Expander.same_seen (e e' : Expander)
    : (e.seen V).same (e'.seen V) = e.same e' := by
  cases e <;> cases e' <;> simp [Expander.same]

namespace Value

mutual

/-- What a view leaves out does not matter to equality. Witness: induction on the first value. -/
@[simp] theorem equal_seen
    : ∀ v w : Value, equal (v.seen V) (w.seen V) = equal v w
  | .list items _, w => by
      cases w <;> simp [equal, ← equalAll_seen items]
  | .vector items, w => by
      cases w <;> simp [equal, ← equalAll_seen items]
  | .map entries, w => by
      cases w <;> simp [equal, ← entriesWithin_seen entries]
  | .set items, w => by
      cases w <;> simp [equal, ← itemsWithin_seen items]
  | .function f, w => by
      cases w <;> simp [equal, Function.same_seen]
  | .expander e, w => by
      cases w <;> simp [equal, Expander.same_seen]
  | .node n, w => by
      cases w <;> simp [equal, Node.same]
  | .nil, w | .bool _, w | .int _, w | .float _, w | .char _, w | .string _, w | .symbol _, w
  | .keyword _, w | .type _, w => by cases w <;> rfl
termination_by structural v => v

/-- Several values are seen to be equal if they are, by the first and the others. -/
theorem equalAll_seen
    : ∀ vs ws : List Value,
        equalAll (vs.map (seen V)) (ws.map (seen V)) = equalAll vs ws
  | [], [] | [], _ :: _ | _ :: _, [] => rfl
  | v :: vs, w :: ws => by
      simp only [List.map_cons, equalAll, equal_seen v w, equalAll_seen vs ws]
termination_by structural vs => vs

/-- Items are seen to be within others if they are. -/
theorem itemsWithin_seen
    : ∀ vs ws : List Value,
        itemsWithin (vs.map (seen V)) (ws.map (seen V)) = itemsWithin vs ws
  | [], _ => rfl
  | v :: vs, ws => by
      have first : (ws.map (seen V)).any (equal (v.seen V)) = ws.any (equal v) := by
        simp only [List.any_map, Function.comp_def, equal_seen v]
      rw [List.map_cons, itemsWithin, itemsWithin, first, itemsWithin_seen vs ws]
termination_by structural vs => vs

/-- So are entries. -/
theorem entriesWithin_seen
    : ∀ es es' : List (Value × Value),
        entriesWithin (es.map (seenEntry V)) (es'.map (seenEntry V)) = entriesWithin es es'
  | [], _ => rfl
  | (k, v) :: es, es' => by
      simp only [List.map_cons, entriesWithin, List.any_map, Function.comp_def, seenEntry,
        equal_seen k, equal_seen v, entriesWithin_seen es es']
termination_by structural es => es

end

/-- Values are seen to be equal if they are. -/
@[simp] theorem beq_seen (v w : Value)
    : (v.seen V == w.seen V) = (v == w) :=
  equal_seen v w

variable {digest : Digest}

mutual

/-- What a view leaves out does not matter to hashing. Witness: induction on the value. -/
theorem hashWords_seen
    : ∀ v : Value, (v.seen V).hashWords digest = v.hashWords digest
  | .list items _ => by simp [hashWords, hashWordsOfAll_seen items]
  | .vector items => by simp [hashWords, hashWordsOfAll_seen items]
  | .map entries => by simp [hashWords, sumOfEntries_seen entries]
  | .set items => by simp [hashWords, sumOfItems_seen items]
  | .function (.builtin _) => rfl
  | .function (.closure ⟨_, _, _, _, _, _⟩) => rfl
  | .expander (.ofUser ⟨_, _, _, _, _⟩) => rfl
  | .expander (.ofMacro ⟨_, _⟩) => rfl
  | .expander (.initial _) | .expander (.form _) => rfl
  | .node ⟨_, _, _, _⟩ => rfl
  | .nil | .bool _ | .int _ | .float _ | .char _ | .string _ | .symbol _ | .keyword _
  | .type _ => rfl
termination_by structural v => v

/-- Several values have the words to hash that they are seen with. -/
theorem hashWordsOfAll_seen
    : ∀ vs : List Value, hashWordsOfAll digest (vs.map (seen V)) = hashWordsOfAll digest vs
  | [] => rfl
  | v :: vs => by
      rw [List.map_cons, hashWordsOfAll, hashWordsOfAll, hashWords_seen v,
        hashWordsOfAll_seen vs]
termination_by structural vs => vs

/-- The items of a set have the sum that they are seen with. -/
theorem sumOfItems_seen
    : ∀ vs : List Value, sumOfItems digest (vs.map (seen V)) = sumOfItems digest vs
  | [] => rfl
  | v :: vs => by
      rw [List.map_cons, sumOfItems, sumOfItems, hashWords_seen v, sumOfItems_seen vs]
termination_by structural vs => vs

/-- So have the entries of a map. -/
theorem sumOfEntries_seen
    : ∀ es : List (Value × Value), sumOfEntries digest (es.map (seenEntry V))
      = sumOfEntries digest es
  | [] => rfl
  | (k, v) :: es => by
      simp only [List.map_cons, seenEntry, sumOfEntries, hashWords_seen k,
        hashWords_seen v, sumOfEntries_seen es]
termination_by structural es => es

end

/-- A value has the hash that it is seen with. -/
@[simp] theorem hashCode_seen (v : Value)
    : (v.seen V).hashCode digest = v.hashCode digest := by
  unfold hashCode
  rw [hashWords_seen]

end Value

end IncrementalLisp
