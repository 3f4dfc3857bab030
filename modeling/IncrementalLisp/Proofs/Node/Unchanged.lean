import IncrementalLisp.Proofs.Node.Normal
import IncrementalLisp.Proofs.Node.Tree

/-! When a rewrite returns the node that it was given. A rewrite tells its caller whether it changed
anything, so that a node is rebuilt only around parts that changed. What specialization calls
changed has another tree. So does what simplification calls changed, but for sequences,
conditionals and bindings: these are rebuilt in any case, and so is every node around them.
-/

namespace IncrementalLisp

-----------------------------------------------------------------------------------------
-- Specialization
-----------------------------------------------------------------------------------------

mutual

/-- A node whose tree stays the same is not changed by specialization. Witness: induction on the
node; a reference that is replaced becomes a constant.
-/
theorem Node.specialized?_of_tree
    : ∀ {n : Node} {b : Bindings}, (n.specialized b).tree = n.tree → n.specialized? b = none
  | ⟨shape, recorded, source, identity⟩, b, same => by
      by_cases reference : ∃ s, shape = .lookup s
      · obtain ⟨s, rfl⟩ := reference
        cases bound : b.lexical? s with
        | none => simp [Node.specialized?, bound]
        | some v =>
            have constant := congrArg Node.shape same
            simp [Node.specialized_lookup_of_some bound, Node.shape_tree, Node.shape_replacedBy,
              Node.shape_locatedAt, Node.of, Shape.tree] at constant
      · have other : ∀ s, (Node.mk shape recorded source identity).shape ≠ .lookup s :=
          not_exists.mp reference
        have shapes := congrArg Node.shape same
        simp only [Node.shape_tree, Node.shape_specialized other] at shapes
        rw [Node.specialized?_of_ne_lookup other, Shape.specialized?_of_tree shapes]
        rfl
termination_by structural n => n

/-- A shape that keeps its tree under specialization is left alone, part by part. -/
theorem Shape.specialized?_of_tree
    : ∀ {s : Shape} {b : Bindings}, (s.specialized b).tree = s.tree → s.specialized? b = none
  | .constant _, _, _ | .lookup _, _, _ | .quote _ _, _, _ | .invoke _ _ _, _, _
  | .invokeStatic _ _ _, _, _ | .cast _ _, _, _ | .instanceOf _ _, _, _ => rfl
  | .apply _ _, _, same => by
      simp only [Shape.specialized, Shape.tree, Shape.apply.injEq] at same
      rw [Shape.specialized?, Node.specialized?_of_tree same.1, specializedAll?_of_trees same.2]
  | .define _ _, _, same => by
      simp only [Shape.specialized, Shape.tree, Shape.define.injEq] at same
      rw [Shape.specialized?, Node.specialized?_of_tree same.2]
      rfl
  | .sequence _, _, same => by
      simp only [Shape.specialized, Shape.tree, Shape.sequence.injEq] at same
      rw [Shape.specialized?, specializedAll?_of_trees same]
      rfl
  | .conditional _ _ _, _, same => by
      simp only [Shape.specialized, Shape.tree, Shape.conditional.injEq] at same
      rw [Shape.specialized?, Node.specialized?_of_tree same.1, Node.specialized?_of_tree same.2.1,
        Node.specialized?_of_tree same.2.2]
  | .binding _ _, _, same => by
      simp only [Shape.specialized, Shape.tree, Shape.binding.injEq] at same
      rw [Shape.specialized?, specializedPairs?_of_trees same.1, Node.specialized?_of_tree same.2]
  | .lambda _ _ _, _, same => by
      simp only [Shape.specialized, Shape.tree, Shape.lambda.injEq, true_and] at same
      rw [Shape.specialized?, Node.specialized?_of_tree same]
      rfl
  | .expander _ _ _, _, same => by
      simp only [Shape.specialized, Shape.tree, Shape.expander.injEq, true_and] at same
      rw [Shape.specialized?, Node.specialized?_of_tree same]
      rfl
  | .vector _, _, same | .list _, _, same | .hashMap _, _, same | .set _, _, same => by
      simp only [Shape.specialized, Shape.tree, Shape.vector.injEq, Shape.list.injEq,
        Shape.hashMap.injEq, Shape.set.injEq] at same
      rw [Shape.specialized?, specializedAll?_of_trees same]
      rfl
termination_by structural s => s

/-- So are nodes, by the first and the others. -/
theorem specializedAll?_of_trees
    : ∀ {ns : List Node} {b : Bindings}, treesOf (specializedAll ns b) = treesOf ns
        → specializedAll? ns b = none
  | [], _, _ => rfl
  | _ :: _, _, same => by
      simp only [specializedAll, List.map_cons, treesOf, List.cons.injEq] at same
      rw [specializedAll?, consChanged_eq_none]
      exact ⟨Node.specialized?_of_tree same.1, specializedAll?_of_trees same.2⟩
termination_by structural ns => ns

/-- So are pairs, by the first and the others. -/
theorem specializedPairs?_of_trees
    : ∀ {ps : List (Symbol × Node)} {b : Bindings},
        treesOfPairs (specializedPairs ps b) = treesOfPairs ps → specializedPairs? ps b = none
  | [], _, _ => rfl
  | (_, _) :: _, _, same => by
      simp only [specializedPairs, List.map_cons, treesOfPairs, List.cons.injEq, Prod.mk.injEq,
        true_and] at same
      rw [specializedPairs?, consChanged_eq_none, Option.map_eq_none_iff]
      exact ⟨Node.specialized?_of_tree same.1, specializedPairs?_of_trees same.2⟩
termination_by structural ps => ps

end

/-- Specialization returns the node that it was given just when the tree of the node stays the same.
-/
theorem Node.specialized?_eq_none_iff {n : Node} {b : Bindings}
    : n.specialized? b = none ↔ (n.specialized b).tree = n.tree := by
  refine ⟨fun unchanged => ?_, Node.specialized?_of_tree⟩
  rw [Node.specialized, unchanged, Option.getD_none]

/-- There is nothing to erase from no bindings. -/
theorem Bindings.eraseAll_nil (names : List Symbol)
    : eraseAll [] names = [] := by
  induction names with
  | nil => rfl
  | cons _ _ ih => exact ih

mutual

/-- Without bindings specialization changes nothing. Witness: induction on the node. -/
theorem Node.specialized?_nil
    : ∀ n : Node, n.specialized? [] = none
  | ⟨shape, recorded, source, identity⟩ => by
      by_cases reference : ∃ s, shape = .lookup s
      · obtain ⟨s, rfl⟩ := reference
        simp [Node.specialized?, Bindings.lexical?, Bindings.get?]
      · rw [Node.specialized?_of_ne_lookup (not_exists.mp reference), Shape.specialized?_nil]
        rfl
termination_by structural n => n

/-- No shape is specialized without bindings, part by part. -/
theorem Shape.specialized?_nil
    : ∀ s : Shape, s.specialized? [] = none
  | .constant _ | .lookup _ | .quote _ _ | .invoke _ _ _ | .invokeStatic _ _ _ | .cast _ _
  | .instanceOf _ _ => rfl
  | .apply f args => by rw [Shape.specialized?, f.specialized?_nil, specializedAll?_nil]
  | .define _ expr => by
      rw [Shape.specialized?, expr.specialized?_nil]
      rfl
  | .conditional test yes no => by
      rw [Shape.specialized?, test.specialized?_nil, yes.specialized?_nil, no.specialized?_nil]
  | .binding pairs body => by
      rw [Shape.specialized?, Bindings.eraseAll_nil, specializedPairs?_nil, body.specialized?_nil]
  | .lambda _ _ body | .expander _ _ body => by
      rw [Shape.specialized?, Bindings.eraseAll_nil, body.specialized?_nil]
      rfl
  | .sequence items | .vector items | .list items | .hashMap items | .set items => by
      rw [Shape.specialized?, specializedAll?_nil]
      rfl
termination_by structural s => s

/-- No nodes are. -/
theorem specializedAll?_nil
    : ∀ ns : List Node, specializedAll? ns [] = none
  | [] => rfl
  | n :: rest => by rw [specializedAll?, n.specialized?_nil, specializedAll?_nil rest, consChanged]
termination_by structural ns => ns

/-- No pairs are. -/
theorem specializedPairs?_nil
    : ∀ ps : List (Symbol × Node), specializedPairs? ps [] = none
  | [] => rfl
  | (_, n) :: rest => by
      rw [specializedPairs?, n.specialized?_nil, specializedPairs?_nil rest]
      rfl
termination_by structural ps => ps

end

/-- A node without bindings is specialized to itself. -/
@[simp]
theorem Node.specialized_nil (n : Node)
    : n.specialized [] = n := by
  rw [specialized, n.specialized?_nil, Option.getD_none]

-----------------------------------------------------------------------------------------
-- Simplification
-----------------------------------------------------------------------------------------

variable {a : Arrangement}

/-- Whether nodes of a shape are rebuilt whenever they are simplified. -/
def Shape.alwaysRebuilt : Shape → Bool
  | .sequence _ | .conditional _ _ _ | .binding _ _ => true
  | _ => false

/-- A collection whose tree stays the same is not folded, and none of its items changes. -/
theorem Node.collection?_of_tree {n : Node} {items : List Node} {shape : List Node → Shape}
    {build : List Value → Option Value}
    (same : (Shape.collectionOf (items.map (Node.optimized a)) shape build).tree
      = (shape items).tree)
    (collects : ∀ ns v, (shape ns).tree ≠ .constant v)
    (unchanged : (shape (items.map (Node.optimized a))).tree = (shape items).tree
      → optimizedAll? a items = none)
    : n.collection? items (optimizedAll? a items) shape build = none := by
  unfold Shape.collectionOf at same
  unfold Node.collection?
  rw [optimizedAll?_getD]
  cases built : (constants? (items.map (Node.optimized a))).bind build with
  | some v =>
      rw [built] at same
      exact absurd same.symm (collects items v)
  | none =>
      rw [built] at same
      simp [unchanged same]

mutual

/-- A node whose tree stays the same is not changed by simplification, unless something shows in it
that is always rebuilt. Witness: induction on the node; a quote becomes a constant, and so does a
collection that is folded.
-/
theorem Node.optimized?_of_tree
    : ∀ {n : Node}, (n.optimized a).tree = n.tree → n.Throughout (¬·.alwaysRebuilt)
        → n.optimized? a = none
  | ⟨shape, recorded, source, identity⟩, same, kept => by
      have shapes := congrArg Node.shape same
      simp only [Node.shape_tree, Node.shape_optimized] at shapes
      obtain ⟨whole, parts⟩ := Node.throughout_iff.mp kept
      exact Shape.optimizedIn?_of_tree shapes whole parts _
termination_by structural n => n

/-- A shape that keeps its tree under simplification is left alone, unless a part of it is always
rebuilt. Witness: part by part.
-/
theorem Shape.optimizedIn?_of_tree
    : ∀ {s : Shape}, (s.optimized a).tree = s.tree → ¬s.alwaysRebuilt
        → (s.asksHost = false → ∀ part ∈ s.parts, part.Throughout (¬·.alwaysRebuilt))
        → ∀ n, s.optimizedIn? a n = none
  | .constant _, _, _, _, _ | .lookup _, _, _, _, _ | .invoke _ _ _, _, _, _, _
  | .invokeStatic _ _ _, _, _, _, _ | .cast _ _, _, _, _, _ | .instanceOf _ _, _, _, _, _ => rfl
  | .sequence _, _, kept, _, _ | .conditional _ _ _, _, kept, _, _ | .binding _ _, _, kept, _, _ =>
      absurd rfl kept
  | .quote _ _, same, _, _, _ => by
      simp [Shape.optimized, Shape.tree] at same
  | .apply _ _, same, _, parts, _ => by
      simp only [Shape.optimized, Shape.tree, Shape.apply.injEq] at same
      simp only [Shape.asksHost, Shape.parts, List.forall_mem_cons, forall_const] at parts
      rw [Shape.optimizedIn?, Node.optimized?_of_tree same.1 parts.1,
        optimizedAll?_of_trees same.2 parts.2]
  | .define _ expr, same, _, parts, _ => by
      simp only [Shape.optimized, Shape.tree, Shape.define.injEq, true_and] at same
      have inner := parts rfl expr List.mem_cons_self
      rw [Shape.optimizedIn?, Node.optimized?_of_tree same inner]
      rfl
  | .lambda _ _ body, same, _, parts, _ => by
      simp only [Shape.optimized, Shape.tree, Shape.lambda.injEq, true_and] at same
      have inner := parts rfl body List.mem_cons_self
      rw [Shape.optimizedIn?, Node.optimized?_of_tree same inner]
      rfl
  | .expander _ _ body, same, _, parts, _ => by
      simp only [Shape.optimized, Shape.tree, Shape.expander.injEq, true_and] at same
      have inner := parts rfl body List.mem_cons_self
      rw [Shape.optimizedIn?, Node.optimized?_of_tree same inner]
      rfl
  | .vector _, same, _, parts, _ | .list _, same, _, parts, _ | .hashMap _, same, _, parts, _
  | .set _, same, _, parts, _ => by
      refine Node.collection?_of_tree same nofun fun trees => ?_
      simp only [Shape.tree, Shape.vector.injEq, Shape.list.injEq, Shape.hashMap.injEq,
        Shape.set.injEq] at trees
      exact optimizedAll?_of_trees trees (parts rfl)
termination_by structural s => s

/-- So are nodes, by the first and the others. -/
theorem optimizedAll?_of_trees
    : ∀ {ns : List Node}, treesOf (ns.map (Node.optimized a)) = treesOf ns
        → (∀ n ∈ ns, n.Throughout (¬·.alwaysRebuilt)) → optimizedAll? a ns = none
  | [], _, _ => rfl
  | _ :: _, same, kept => by
      simp only [List.map_cons, treesOf, List.cons.injEq] at same
      rw [List.forall_mem_cons] at kept
      rw [optimizedAll?, consChanged_eq_none]
      exact ⟨Node.optimized?_of_tree same.1 kept.1, optimizedAll?_of_trees same.2 kept.2⟩
termination_by structural ns => ns

end

/-- Nodes change together if one of them does. Witness: induction on the nodes. -/
theorem optimizedAll?_isSome {ns : List Node} {n : Node} (member : n ∈ ns)
    (changed : (n.optimized? a).isSome)
    : (optimizedAll? a ns).isSome := by
  induction ns with
  | nil => cases member
  | cons first rest ih =>
      rw [optimizedAll?, isSome_consChanged, Bool.or_eq_true]
      rcases List.mem_cons.mp member with rfl | later
      · exact Or.inl changed
      · exact Or.inr (ih later)

/-- A shape is changed if one of its parts is, but for host operations. -/
theorem Shape.optimizedIn?_isSome {s : Shape} (open? : s.asksHost = false) {part : Node}
    (member : part ∈ s.parts) (changed : (part.optimized? a).isSome) (n : Node)
    : (s.optimizedIn? a n).isSome := by
  cases s with
  | constant | lookup | quote => cases member
  | invoke | invokeStatic | cast | instanceOf => cases open?
  | sequence | conditional => rfl
  | binding =>
      dsimp only [Shape.optimizedIn?]
      split <;> rfl
  | define | lambda | expander =>
      obtain rfl := List.mem_singleton.mp member
      simpa [Shape.optimizedIn?] using changed
  | vector | list | hashMap | set =>
      have items := optimizedAll?_isSome member changed
      rw [Shape.optimizedIn?, Node.collection?]
      split
      · rfl
      · simpa [Shape.parts] using items
  | apply f args =>
      rw [Shape.optimizedIn?]
      split
      · rename_i callee all
        rcases List.mem_cons.mp member with rfl | later
        · simp [callee] at changed
        · have items := optimizedAll?_isSome later changed
          simp [all] at items
      · rfl

/-- A node is changed if something shows in it that is always rebuilt. -/
theorem Node.Reveals.optimized?_isSome {n m : Node} (shown : n.Reveals m)
    (rebuilt : m.shape.alwaysRebuilt)
    : (n.optimized? a).isSome := by
  induction shown with
  | whole n =>
      rw [Node.optimized?_eq]
      cases same : n.shape with
      | sequence | conditional => rfl
      | binding =>
          dsimp only [Shape.optimizedIn?]
          split <;> rfl
      | _ => simp [same, Shape.alwaysRebuilt] at rebuilt
  | part open? member _ ih =>
      rw [Node.optimized?_eq]
      exact Shape.optimizedIn?_isSome open? member (ih rebuilt) _

/-- Simplification returns the node that it was given just when the tree of the node stays the same
and no sequence, conditional or binding shows in it.
-/
theorem Node.optimized?_eq_none_iff {n : Node}
    : n.optimized? a = none ↔ (n.optimized a).tree = n.tree ∧ n.Throughout (¬·.alwaysRebuilt) := by
  constructor
  · intro unchanged
    refine ⟨by rw [Node.optimized, unchanged, Option.getD_none], fun m shown rebuilt => ?_⟩
    have changed := shown.optimized?_isSome (a := a) rebuilt
    simp [unchanged] at changed
  · rintro ⟨same, kept⟩
    exact Node.optimized?_of_tree same kept

end IncrementalLisp
