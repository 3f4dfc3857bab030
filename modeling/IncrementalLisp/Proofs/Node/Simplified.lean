import IncrementalLisp.Proofs.Node.Optimized
import IncrementalLisp.Proofs.Primitive.Alike

/-! Simplification of alike nodes. Two nodes that are alike both change when they are simplified, to
alike nodes, or neither of them does: what is simplified is decided by which nodes are constant
and by the truth of constants, and in both alike nodes agree.
-/

namespace IncrementalLisp

variable {M : Likeness} {a : Arrangement}

-----------------------------------------------------------------------------------------
-- What constants are built into
-----------------------------------------------------------------------------------------

/-- (BuildsAlike M build) says that what is built of alike items is alike, if anything is. -/
def BuildsAlike (M : Likeness) (build : List Value → Option Value)
    : Prop :=
  ∀ {vs ws : List Value}, ValuesAlike M vs ws → Option.Rel (Value.Alike M) (build vs) (build ws)

/-- Maps are built alike from values that are alike, for as many keys as values. -/
theorem buildsAlike_mapOfItems? (exact : M.Exact)
    : BuildsAlike M (mapOfItems? a) := by
  intro vs ws values
  unfold mapOfItems?
  rw [values.length_eq]
  split
  · exact .some (mapOf_alike values (.inr exact))
  · exact .none

/-- Nodes that are alike have constants that are, or neither have. Witness: induction on the nodes.
-/
theorem constants?_alike {ns ns' : List Node} (alike : NodesAlike M ns ns')
    : Option.Rel (ValuesAlike M) (constants? ns) (constants? ns') := by
  unfold constants?
  induction ns generalizing ns' with
  | nil =>
      obtain rfl := alike
      exact .some rfl
  | cons n rest ih =>
      obtain ⟨n', others, rfl, first, last⟩ := alike
      have constant := first.constant?
      have constants := ih last
      rw [List.mapM_cons, List.mapM_cons]
      generalize n.constant? = o, n'.constant? = o', rest.mapM Node.constant? = os,
        others.mapM Node.constant? = os' at constant constants ⊢
      cases constant with
      | none => exact .none
      | some value =>
          cases constants with
          | none => exact .none
          | some values => exact .some ⟨_, _, rfl, value, values⟩

/-- They are constants together. -/
theorem Node.Alike.isConstant_eq {n n' : Node} (alike : n.Alike M n')
    : n'.isConstant = n.isConstant := by
  have constant := alike.constant?
  unfold Node.isConstant
  generalize n.constant? = o, n'.constant? = o' at constant ⊢
  cases constant <;> rfl

/-- There are some nodes on one side if there are on the other. -/
theorem NodesAlike.ne_nil {ns ns' : List Node} (alike : NodesAlike M ns ns') (some? : ns ≠ [])
    : ns' ≠ [] := by
  cases ns with
  | nil => exact absurd rfl some?
  | cons =>
      obtain ⟨_, _, rfl, _⟩ := alike
      exact List.cons_ne_nil _ _

/-- The effective nodes of bodies that are alike are alike. Witness: induction on the nodes. -/
theorem effective_alike {ns ns' : List Node} (alike : NodesAlike M ns ns')
    : NodesAlike M (effective ns) (effective ns') := by
  induction ns generalizing ns' with
  | nil =>
      obtain rfl := alike
      rfl
  | cons n rest ih =>
      obtain ⟨n', others, rfl, first, last⟩ := alike
      by_cases more : rest = []
      · subst more
        obtain rfl := last
        exact ⟨n', [], rfl, first, rfl⟩
      · rw [effective_cons more, effective_cons (last.ne_nil more), first.isConstant_eq]
        split
        · exact ih last
        · exact ⟨n', _, rfl, first, ih last⟩

-----------------------------------------------------------------------------------------
-- Simplified nodes
-----------------------------------------------------------------------------------------

section Simplified

variable {n n' : Node} (records : n'.recorded = n.recorded)
include records

/-- Nodes that recorded the same are alike when reshaped alike. -/
theorem Node.Alike.reshaped {s s' : Shape} (alike : s.Alike M s')
    : (n.reshaped s).Alike M (n'.reshaped s') :=
  ⟨alike, records, M.reflexive _⟩

/-- So they are when folded to values that are alike. -/
theorem Node.Alike.foldedTo {v w : Value} (alike : v.Alike M w)
    : (n.foldedTo v).Alike M (n'.foldedTo w) :=
  .replacedBy records (.constant_locatedAt alike _ _)

/-- So they are when their collections are rebuilt alike. -/
theorem Node.Alike.collection? {items items' : List Node} {items? items'? : Option (List Node)}
    (alike : NodesAlike M items items') (changed : Option.Rel (NodesAlike M) items? items'?)
    {shape : List Node → Shape} {build : List Value → Option Value}
    (shapes : ∀ {ns ns'}, NodesAlike M ns ns' → (shape ns).Alike M (shape ns'))
    (builds : BuildsAlike M build)
    : Option.Rel (Node.Alike M) (n.collection? items items? shape build)
        (n'.collection? items' items'? shape build) := by
  have constants := constants?_alike (nodes_getD_alike alike changed)
  unfold Node.collection?
  generalize constants? (items?.getD items) = o, constants? (items'?.getD items') = o'
    at constants ⊢
  have built : Option.Rel (Value.Alike M) (o.bind build) (o'.bind build) := by
    cases constants with
    | none => exact .none
    | some values => exact builds values
  generalize o.bind build = r, o'.bind build = r' at built ⊢
  cases built with
  | some same => exact .some (.foldedTo records same)
  | none => exact map_rel changed fun same => .reshaped records (shapes same)

/-- So they are when their bodies are simplified, by the number of effective nodes. -/
theorem Node.Alike.sequenceOf {body body' : List Node} (alike : NodesAlike M body body')
    : (n.sequenceOf body).Alike M (n'.sequenceOf body') := by
  have kept := effective_alike alike
  unfold Node.sequenceOf
  generalize effective body = ns, effective body' = ns' at kept ⊢
  have whole := kept
  rw [nodesAlike_iff_forall₂] at kept
  rcases kept with _ | ⟨only, _ | ⟨_, _⟩⟩
  · exact .replacedBy records ⟨⟨.nil, rfl, rfl⟩, rfl, M.reflexive _⟩
  · exact .replacedBy records only
  · exact .reshaped records ⟨_, rfl, whole⟩

/-- So they are when their conditionals are, by the constant of the test. -/
theorem Node.Alike.conditionalOf {test test' yes yes' no no' : Node} (tests : test.Alike M test')
    (yeses : yes.Alike M yes') (noes : no.Alike M no')
    : (n.conditionalOf test yes no).Alike M (n'.conditionalOf test' yes' no') := by
  have constant := tests.constant?
  unfold Node.conditionalOf
  generalize test.constant? = o, test'.constant? = o' at constant ⊢
  cases constant with
  | none => exact .reshaped records ⟨_, _, _, rfl, tests, yeses, noes⟩
  | some same =>
      refine .replacedBy records ?_
      rw [same.isTruthy_eq]
      split
      · exact yeses
      · exact noes

end Simplified

mutual

/-- Alike nodes both change when they are simplified, to alike nodes, or neither does. Witness:
induction on the node.
-/
theorem Node.Alike.optimized? (exact : M.Exact)
    : ∀ {n n' : Node}, n.Alike M n' → Option.Rel (Node.Alike M) (n.optimized? a) (n'.optimized? a)
  | ⟨_, _, _, _⟩, ⟨_, _, _, _⟩, ⟨shapes, records, _⟩ =>
    Shape.Alike.optimizedIn? exact shapes records
termination_by structural n => n

/-- Shapes that are alike are simplified alike, part by part. -/
theorem Shape.Alike.optimizedIn? (exact : M.Exact)
    : ∀ {s s' : Shape}, s.Alike M s' → ∀ {n n' : Node}, n'.recorded = n.recorded
        → Option.Rel (Node.Alike M) (s.optimizedIn? a n) (s'.optimizedIn? a n')
  | .constant _, _, ⟨_, same, _⟩, _, _, _ => by
      rw [same]
      exact .none
  | .lookup _, _, same, _, _, _ => by
      rw [same]
      exact .none
  | .apply f args, _, ⟨g, others, same, callee, alike⟩, _, _, records => by
      rw [same, Shape.optimizedIn?, Shape.optimizedIn?]
      have first := Node.Alike.optimized? exact callee
      have rest := NodesAlike.optimizedAll? exact alike
      generalize f.optimized? a = o, g.optimized? a = o', IncrementalLisp.optimizedAll? a args = os,
        IncrementalLisp.optimizedAll? a others = os' at first rest ⊢
      have head := getD_alike callee first
      have all := nodes_getD_alike alike rest
      cases first <;> cases rest
      all_goals first | exact .none | exact .some (.reshaped records ⟨_, _, rfl, head, all⟩)
  | .define _ _, _, ⟨_, same, expr⟩, _, _, records => by
      rw [same, Shape.optimizedIn?, Shape.optimizedIn?]
      exact map_rel (Node.Alike.optimized? exact expr) fun inner =>
        .reshaped records ⟨_, rfl, inner⟩
  | .sequence _, _, ⟨_, same, body⟩, _, _, records => by
      rw [same, Shape.optimizedIn?, Shape.optimizedIn?]
      exact .some (.sequenceOf records
        (nodes_getD_alike body (NodesAlike.optimizedAll? exact body)))
  | .conditional _ _ _, _, ⟨_, _, _, same, tests, yeses, noes⟩, _, _, records => by
      rw [same, Shape.optimizedIn?, Shape.optimizedIn?]
      exact .some (.conditionalOf records (getD_alike tests (Node.Alike.optimized? exact tests))
        (getD_alike yeses (Node.Alike.optimized? exact yeses))
        (getD_alike noes (Node.Alike.optimized? exact noes)))
  | .binding pairs body, _, ⟨pairs', _, same, alike, bodies⟩, _, _, records => by
      rw [same, Shape.optimizedIn?, Shape.optimizedIn?]
      have inner := getD_alike bodies (Node.Alike.optimized? exact bodies)
      have all := pairs_getD_alike alike (PairsAlike.optimizedPairs? exact alike)
      have empty : pairs'.isEmpty = pairs.isEmpty := by
        rw [← List.isEmpty_map (f := Prod.fst), alike.names_eq, List.isEmpty_map]
      rw [empty]
      split
      · exact .some (.replacedBy records inner)
      · exact .some (.reshaped records ⟨_, _, rfl, all, inner⟩)
  | .lambda _ _ _, _, ⟨_, same, body⟩, _, _, records => by
      rw [same, Shape.optimizedIn?, Shape.optimizedIn?]
      exact map_rel (Node.Alike.optimized? exact body) fun inner =>
        .reshaped records ⟨_, rfl, inner⟩
  | .expander _ _ _, _, ⟨_, same, body⟩, _, _, records => by
      rw [same, Shape.optimizedIn?, Shape.optimizedIn?]
      exact map_rel (Node.Alike.optimized? exact body) fun inner =>
        .reshaped records ⟨_, rfl, inner⟩
  | .quote _ _, _, ⟨_, same, form⟩, _, _, records => by
      rw [same, Shape.optimizedIn?, Shape.optimizedIn?]
      exact .some (.foldedTo records form)
  | .vector _, _, ⟨_, same, items⟩, _, _, records => by
      rw [same, Shape.optimizedIn?, Shape.optimizedIn?]
      exact Node.Alike.collection? records items (NodesAlike.optimizedAll? exact items)
        (fun changed => ⟨_, rfl, changed⟩) fun values => .some ⟨_, rfl, values⟩
  | .list _, _, ⟨_, same, items⟩, _, _, records => by
      rw [same, Shape.optimizedIn?, Shape.optimizedIn?]
      exact Node.Alike.collection? records items (NodesAlike.optimizedAll? exact items)
        (fun changed => ⟨_, rfl, changed⟩) fun values => .some ⟨_, rfl, values⟩
  | .hashMap _, _, ⟨_, same, items⟩, _, _, records => by
      rw [same, Shape.optimizedIn?, Shape.optimizedIn?]
      exact Node.Alike.collection? records items (NodesAlike.optimizedAll? exact items)
        (fun changed => ⟨_, rfl, changed⟩) (buildsAlike_mapOfItems? exact)
  | .set _, _, ⟨_, same, items⟩, _, _, records => by
      rw [same, Shape.optimizedIn?, Shape.optimizedIn?]
      exact Node.Alike.collection? records items (NodesAlike.optimizedAll? exact items)
        (fun changed => ⟨_, rfl, changed⟩) fun values => .some (setOf_alike values (.inr exact))
  | .invoke _ _ _, _, ⟨_, _, same, _, _⟩, _, _, _ => by
      rw [same]
      exact .none
  | .invokeStatic _ _ _, _, ⟨_, same, _⟩, _, _, _ => by
      rw [same]
      exact .none
  | .cast _ _, _, ⟨_, same, _⟩, _, _, _ => by
      rw [same]
      exact .none
  | .instanceOf _ _, _, ⟨_, _, same, _, _⟩, _, _, _ => by
      rw [same]
      exact .none
termination_by structural s => s

/-- So are nodes, by the first and the others. -/
theorem NodesAlike.optimizedAll? (exact : M.Exact)
    : ∀ {ns ns' : List Node}, NodesAlike M ns ns'
        → Option.Rel (NodesAlike M) (optimizedAll? a ns) (optimizedAll? a ns')
  | [], _, same => by
      rw [same]
      exact .none
  | _ :: _, _, ⟨_, _, same, first, rest⟩ => by
      rw [same, IncrementalLisp.optimizedAll?, IncrementalLisp.optimizedAll?]
      exact consChanged_alike first rest (Node.Alike.optimized? exact first)
        (NodesAlike.optimizedAll? exact rest)
termination_by structural ns => ns

/-- So are pairs, by the first and the others. -/
theorem PairsAlike.optimizedPairs? (exact : M.Exact)
    : ∀ {ps ps' : List (Symbol × Node)}, PairsAlike M ps ps'
        → Option.Rel (PairsAlike M) (optimizedPairs? a ps) (optimizedPairs? a ps')
  | [], _, same => by
      rw [same]
      exact .none
  | (_, _) :: _, _, ⟨_, _, same, first, rest⟩ => by
      rw [same, IncrementalLisp.optimizedPairs?, IncrementalLisp.optimizedPairs?]
      exact consChanged_pair_alike first rest (Node.Alike.optimized? exact first)
        (PairsAlike.optimizedPairs? exact rest)
termination_by structural ps => ps

end

/-- The simpler forms of alike nodes are alike. -/
theorem Node.Alike.optimized (exact : M.Exact) {n n' : Node} (alike : n.Alike M n')
    : (n.optimized a).Alike M (n'.optimized a) :=
  getD_alike alike (alike.optimized? exact)

end IncrementalLisp
