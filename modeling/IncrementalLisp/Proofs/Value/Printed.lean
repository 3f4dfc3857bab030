import IncrementalLisp.Proofs.Value.Bindings
import IncrementalLisp.Value.Printer

/-! Alike values are printed alike: no printed form shows an identity or a context.
-/

namespace IncrementalLisp

variable {M : Likeness}

/-- Functions that are alike have the same readable form, by their kind. -/
theorem Function.Alike.repr_eq {f g : Function} (alike : f.Alike M g)
    : g.repr = f.repr := by
  cases f with
  | builtin p =>
      obtain rfl := alike
      rfl
  | closure c =>
      obtain ⟨d, rfl, inner⟩ := alike
      obtain ⟨_, _, _, _, _, _⟩ := c
      obtain ⟨_, params, rest, _⟩ := inner
      rw [Function.repr, Function.repr, params, rest]

/-- So have expanders. -/
theorem Expander.Alike.repr_eq {e e' : Expander} (alike : e.Alike M e')
    : e'.repr = e.repr := by
  cases e with
  | initial =>
      obtain ⟨_, rfl, _⟩ := alike
      rfl
  | form =>
      obtain rfl := alike
      rfl
  | ofUser u =>
      obtain ⟨u', rfl, inner⟩ := alike
      obtain ⟨_, _, _, _, _⟩ := u
      obtain ⟨_, _, params, _⟩ := inner
      rw [Expander.repr, Expander.repr, params]
  | ofMacro m =>
      obtain ⟨m', rfl, _⟩ := alike
      rfl

mutual

/-- Alike values have the same readable form. Witness: induction on the value. -/
theorem Value.Alike.repr_eq
    : ∀ {v w : Value}, v.Alike M w → w.repr = v.repr
  | .list _ _, _, ⟨_, same, items⟩ => by
      rw [same, Value.repr, Value.repr, ValuesAlike.reprsOf_eq items]
  | .vector _, _, ⟨_, same, items⟩ => by
      rw [same, Value.repr, Value.repr, ValuesAlike.reprsOf_eq items]
  | .map _, _, ⟨_, same, entries⟩ => by
      rw [same, Value.repr, Value.repr, EntriesAlike.reprsOfEntries_eq entries]
  | .set _, _, ⟨_, same, items⟩ => by
      rw [same, Value.repr, Value.repr, ValuesAlike.reprsOf_eq items]
  | .function _, _, ⟨_, same, functions⟩ => by
      rw [same, Value.repr, Value.repr, functions.repr_eq]
  | .expander _, _, ⟨_, same, expanders⟩ => by
      rw [same, Value.repr, Value.repr, expanders.repr_eq]
  | .node _, _, ⟨_, same, nodes⟩ => by
      rw [same, Value.repr, Value.repr, Node.Alike.repr_eq nodes]
  | .nil, _, same | .bool _, _, same | .int _, _, same | .float _, _, same | .char _, _, same
  | .string _, _, same | .symbol _, _, same | .keyword _, _, same | .type _, _, same => by
      rw [same]
termination_by structural v => v

/-- Several values that are alike have the same readable forms, by the first and the others. -/
theorem ValuesAlike.reprsOf_eq
    : ∀ {vs ws : List Value}, ValuesAlike M vs ws → reprsOf ws = reprsOf vs
  | [], _, same => by rw [same]
  | _ :: _, _, ⟨_, _, same, first, rest⟩ => by
      rw [same, reprsOf, reprsOf, Value.Alike.repr_eq first, ValuesAlike.reprsOf_eq rest]
termination_by structural vs => vs

/-- So have entries. -/
theorem EntriesAlike.reprsOfEntries_eq
    : ∀ {es es' : List (Value × Value)},
        EntriesAlike M es es' → reprsOfEntries es' = reprsOfEntries es
  | [], _, same => by rw [same]
  | (_, _) :: _, _, ⟨_, _, _, same, key, value, rest⟩ => by
      rw [same, reprsOfEntries, reprsOfEntries, Value.Alike.repr_eq key,
        Value.Alike.repr_eq value, EntriesAlike.reprsOfEntries_eq rest]
termination_by structural es => es

/-- So have nodes, by their shapes. -/
theorem Node.Alike.repr_eq
    : ∀ {n n' : Node}, n.Alike M n' → n'.repr = n.repr
  | ⟨_, _, _, _⟩, ⟨_, _, _, _⟩, ⟨shape, _⟩ => by
      rw [Node.repr, Node.repr, Shape.Alike.repr_eq shape]
termination_by structural n => n

/-- So have shapes, part by part. -/
theorem Shape.Alike.repr_eq
    : ∀ {s s' : Shape}, s.Alike M s' → s'.repr = s.repr
  | .constant _, _, ⟨_, same, value⟩ => by
      rw [same, Shape.repr, Shape.repr, Value.Alike.repr_eq value]
  | .lookup _, _, same => by rw [same]
  | .apply _ _, _, ⟨_, _, same, callee, args⟩ => by
      rw [same, Shape.repr, Shape.repr, Node.Alike.repr_eq callee, NodesAlike.nodeReprs_eq args]
  | .define _ _, _, ⟨_, same, expr⟩ => by
      rw [same, Shape.repr, Shape.repr, Node.Alike.repr_eq expr]
  | .sequence _, _, ⟨_, same, body⟩ => by
      rw [same, Shape.repr, Shape.repr, NodesAlike.nodeReprs_eq body]
  | .conditional _ _ _, _, ⟨_, _, _, same, test, yes, no⟩ => by
      rw [same, Shape.repr, Shape.repr, Node.Alike.repr_eq test, Node.Alike.repr_eq yes,
        Node.Alike.repr_eq no]
  | .binding _ _, _, ⟨_, _, same, pairs, body⟩ => by
      rw [same, Shape.repr, Shape.repr, PairsAlike.pairReprs_eq pairs, Node.Alike.repr_eq body]
  | .lambda _ none _, _, ⟨_, same, body⟩ => by
      rw [same, Shape.repr, Shape.repr, Node.Alike.repr_eq body]
  | .lambda _ (some _) _, _, ⟨_, same, body⟩ => by
      rw [same, Shape.repr, Shape.repr, Node.Alike.repr_eq body]
  | .expander _ _ _, _, ⟨_, same, body⟩ => by
      rw [same, Shape.repr, Shape.repr, Node.Alike.repr_eq body]
  | .quote _ _, _, ⟨_, same, form⟩ => by
      rw [same, Shape.repr, Shape.repr, Value.Alike.repr_eq form]
  | .vector _, _, ⟨_, same, items⟩ => by
      rw [same, Shape.repr, Shape.repr, NodesAlike.nodeReprs_eq items]
  | .list _, _, ⟨_, same, items⟩ => by
      rw [same, Shape.repr, Shape.repr, NodesAlike.nodeReprs_eq items]
  | .hashMap _, _, ⟨_, same, items⟩ => by
      rw [same, Shape.repr, Shape.repr, NodesAlike.nodeReprs_eq items]
  | .set _, _, ⟨_, same, items⟩ => by
      rw [same, Shape.repr, Shape.repr, NodesAlike.nodeReprs_eq items]
  | .invoke _ _ _, _, ⟨_, _, same, target, args⟩ => by
      rw [same, Shape.repr, Shape.repr, Node.Alike.repr_eq target, NodesAlike.nodeReprs_eq args]
  | .invokeStatic _ _ _, _, ⟨_, same, args⟩ => by
      rw [same, Shape.repr, Shape.repr, NodesAlike.nodeReprs_eq args]
  | .cast _ _, _, ⟨_, same, expr⟩ => by
      rw [same, Shape.repr, Shape.repr, Node.Alike.repr_eq expr]
  | .instanceOf _ _, _, ⟨_, _, same, type, expr⟩ => by
      rw [same, Shape.repr, Shape.repr, Node.Alike.repr_eq type, Node.Alike.repr_eq expr]
termination_by structural s => s

/-- So have several nodes. -/
theorem NodesAlike.nodeReprs_eq
    : ∀ {ns ns' : List Node}, NodesAlike M ns ns' → nodeReprs ns' = nodeReprs ns
  | [], _, same => by rw [same]
  | _ :: _, _, ⟨_, _, same, first, rest⟩ => by
      rw [same, nodeReprs, nodeReprs, Node.Alike.repr_eq first, NodesAlike.nodeReprs_eq rest]
termination_by structural ns => ns

/-- So have pairs. -/
theorem PairsAlike.pairReprs_eq
    : ∀ {ps ps' : List (Symbol × Node)}, PairsAlike M ps ps' → pairReprs ps' = pairReprs ps
  | [], _, same => by rw [same]
  | (_, _) :: _, _, ⟨_, _, same, first, rest⟩ => by
      rw [same, pairReprs, pairReprs, Node.Alike.repr_eq first, PairsAlike.pairReprs_eq rest]
termination_by structural ps => ps

end

/-- Alike values have the same plain form. -/
theorem Value.Alike.text_eq {v w : Value} (alike : v.Alike M w)
    : w.text = v.text := by
  have same := alike.repr_eq
  cases v with
  | list | vector | map | set | function | expander | node =>
      obtain ⟨_, rfl, _⟩ := alike
      exact same
  | _ =>
      obtain rfl := alike
      rfl

end IncrementalLisp
