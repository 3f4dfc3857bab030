import IncrementalLisp.Proofs.Node.Optimized

/-! The tree of a node: the node without the dependencies recorded on it, the places of forms and
the identities of nodes. The tree of a simplified node is computed from the trees of its
simplified parts.
-/

namespace IncrementalLisp

-----------------------------------------------------------------------------------------
-- Trees
-----------------------------------------------------------------------------------------

mutual

/-- The tree of a node. -/
def Node.tree : Node → Node
  | ⟨shape, _, _, _⟩ => .of shape.tree
termination_by structural n => n

/-- A shape with the trees of its parts. -/
def Shape.tree : Shape → Shape
  | .constant v => .constant v
  | .lookup s => .lookup s
  | .apply f args => .apply f.tree (treesOf args)
  | .define s expr => .define s expr.tree
  | .sequence body => .sequence (treesOf body)
  | .conditional test yes no => .conditional test.tree yes.tree no.tree
  | .binding pairs body => .binding (treesOfPairs pairs) body.tree
  | .lambda params rest body => .lambda params rest body.tree
  | .expander continuation params body => .expander continuation params body.tree
  | .quote form isSyntax => .quote form isSyntax
  | .vector items => .vector (treesOf items)
  | .list items => .list (treesOf items)
  | .hashMap items => .hashMap (treesOf items)
  | .set items => .set (treesOf items)
  | .invoke target member args => .invoke target.tree member (treesOf args)
  | .invokeStatic type member args => .invokeStatic type member (treesOf args)
  | .cast type expr => .cast type expr.tree
  | .instanceOf type expr => .instanceOf type.tree expr.tree
termination_by structural s => s

/-- The trees of several nodes. -/
def treesOf : List Node → List Node
  | [] => []
  | n :: rest => n.tree :: treesOf rest
termination_by structural ns => ns

/-- A list of bindings with the trees of its expressions. -/
def treesOfPairs : List (Symbol × Node) → List (Symbol × Node)
  | [] => []
  | (s, n) :: rest => (s, n.tree) :: treesOfPairs rest
termination_by structural ps => ps

end

/-- The trees of nodes are theirs, one by one. Witness: induction on the nodes. -/
theorem treesOf_eq_map (ns : List Node)
    : treesOf ns = ns.map Node.tree := by
  induction ns with
  | nil => rfl
  | cons n rest ih => rw [treesOf, ih, List.map_cons]

/-- So are those of pairs. Witness: induction on the pairs. -/
theorem treesOfPairs_eq_map (ps : List (Symbol × Node))
    : treesOfPairs ps = ps.map fun pair => (pair.1, pair.2.tree) := by
  induction ps with
  | nil => rfl
  | cons pair rest ih => rw [treesOfPairs, ih, List.map_cons]

/-- The tree of a node depends only on its shape. -/
theorem Node.tree_eq (n : Node)
    : n.tree = .of n.shape.tree := by
  obtain ⟨shape, recorded, source, identity⟩ := n
  rfl

/-- The shape of a tree is the tree of the shape. -/
theorem Node.shape_tree (n : Node)
    : n.tree.shape = n.shape.tree := by
  rw [n.tree_eq]
  rfl

/-- A node whose tree is known has a shape with that tree. -/
theorem Node.shape_of_tree {n : Node} {shape : Shape} (tree : n.tree = .of shape)
    : n.shape.tree = shape := by
  rw [← n.shape_tree, tree]
  rfl

/-- A tree has the constant of its node. -/
theorem Node.constant?_tree (n : Node)
    : n.tree.constant? = n.constant? := by
  unfold Node.constant?
  rw [n.shape_tree]
  cases n.shape <;> rfl

/-- It is a constant if its node is. -/
theorem Node.isConstant_tree (n : Node)
    : n.tree.isConstant = n.isConstant := by
  unfold Node.isConstant
  rw [n.constant?_tree]

/-- The trees of nodes have the constants of the nodes. Witness: induction on them. -/
theorem constants?_map_tree (ns : List Node)
    : constants? (ns.map Node.tree) = constants? ns := by
  unfold constants?
  induction ns with
  | nil => rfl
  | cons n rest ih => rw [List.map_cons, List.mapM_cons, List.mapM_cons, n.constant?_tree, ih]

/-- The effective trees are the trees of the effective nodes. Witness: induction on the nodes. -/
theorem effective_map_tree (ns : List Node)
    : effective (ns.map Node.tree) = (effective ns).map Node.tree := by
  induction ns with
  | nil => rfl
  | cons n rest ih =>
      by_cases more : rest = []
      · subst more
        rfl
      · rw [List.map_cons, effective_cons more, effective_cons (by simpa using more), ih,
          n.isConstant_tree]
        split <;> rfl

/-- The tree of a simplified sequence is that of the trees, by the number of effective nodes. -/
theorem Shape.tree_sequenceOf (body : List Node)
    : (Shape.sequenceOf body).tree = .sequenceOf (body.map Node.tree) := by
  unfold Shape.sequenceOf
  rw [effective_map_tree]
  rcases effective body with _ | ⟨only, _ | ⟨next, rest⟩⟩
  · rfl
  · exact only.shape_tree.symm
  · dsimp only [List.map_cons]
    rw [Shape.tree, treesOf_eq_map, List.map_cons, List.map_cons]

/-- The tree of a simplified collection is that of the trees, folded or not. -/
theorem Shape.tree_collectionOf {items : List Node} {shape : List Node → Shape}
    (parts : (shape items).tree = shape (items.map Node.tree))
    (build : List Value → Option Value)
    : (Shape.collectionOf items shape build).tree
      = .collectionOf (items.map Node.tree) shape build := by
  unfold Shape.collectionOf
  rw [constants?_map_tree]
  cases (constants? items).bind build with
  | none => exact parts
  | some v => rfl

-----------------------------------------------------------------------------------------
-- Simplified trees
-----------------------------------------------------------------------------------------

/-- The tree of a node in its simpler form. -/
def Node.simplified (a : Arrangement) (n : Node)
    : Node :=
  (n.optimized a).tree

namespace Node

variable {a : Arrangement}

/-- The simplified tree of a node depends only on its shape. -/
theorem simplified_eq (n : Node)
    : n.simplified a = .of (n.shape.optimized a).tree := by
  rw [simplified, tree_eq, shape_optimized]

/-- Simplified trees go by the shapes of the nodes alone. -/
theorem simplified_congr {n m : Node} (same : n.shape = m.shape)
    : n.simplified a = m.simplified a := by
  rw [simplified_eq, simplified_eq, same]

/-- A node at a place, and with one more dependency, has the same simplified tree. -/
theorem simplified_locatedAt (n : Node) (place : Option Location)
    : (n.locatedAt place).simplified a = n.simplified a :=
  simplified_congr (shape_locatedAt n place)

/-- One more dependency makes no difference to the simplified tree. -/
theorem simplified_including (n : Node) (s : Symbol)
    : (n.including s).simplified a = n.simplified a :=
  simplified_congr (shape_including n s)

/-- A simplified tree is the new node of its shape. -/
theorem of_shape_simplified (n : Node)
    : Node.of (n.simplified a).shape = n.simplified a := by
  rw [simplified_eq]
  rfl

/-- The trees of simplified nodes are the simplified trees, by definition. -/
theorem map_tree_optimized (ns : List Node)
    : (ns.map (optimized a)).map tree = ns.map (simplified a) := by
  rw [List.map_map]
  rfl

/-- A simplified call has simplified parts. -/
theorem simplified_apply (f : Node) (args : List Node)
    : (Node.of (.apply f args)).simplified a
      = .of (.apply (f.simplified a) (args.map (simplified a))) := by
  rw [simplified_eq, ← map_tree_optimized, ← treesOf_eq_map]
  rfl

/-- A simplified definition has a simplified expression. -/
theorem simplified_define (s : Symbol) (expr : Node)
    : (Node.of (.define s expr)).simplified a = .of (.define s (expr.simplified a)) :=
  simplified_eq _

/-- A simplified function has a simplified body. -/
theorem simplified_lambda (params : List Symbol) (rest : Option Symbol) (body : Node)
    : (Node.of (.lambda params rest body)).simplified a
      = .of (.lambda params rest (body.simplified a)) :=
  simplified_eq _

/-- A simplified sequence is that of its simplified nodes. -/
theorem simplified_sequence (body : List Node)
    : (Node.of (.sequence body)).simplified a = .of (.sequenceOf (body.map (simplified a))) := by
  rw [simplified_eq, ← map_tree_optimized, ← Shape.tree_sequenceOf]
  rfl

/-- A simplified conditional is a branch of it if its simplified test is a constant. -/
theorem simplified_conditional (test yes no : Node)
    : (Node.of (.conditional test yes no)).simplified a
      = match (test.simplified a).constant? with
        | some v => if v.isTruthy then yes.simplified a else no.simplified a
        | none => .of (.conditional (test.simplified a) (yes.simplified a) (no.simplified a)) := by
  rw [simplified_eq]
  dsimp only [of, Shape.optimized]
  rw [simplified, constant?_tree]
  cases (test.optimized a).constant? with
  | none => rfl
  | some v =>
      dsimp only
      split <;> rw [simplified, tree_eq] <;> rfl

/-- Simplified bindings have simplified parts, and are their body if there are none. -/
theorem simplified_binding (pairs : List (Symbol × Node)) (body : Node)
    : (Node.of (.binding pairs body)).simplified a
      = if pairs.isEmpty then body.simplified a
        else
          .of (.binding (pairs.map fun pair => (pair.1, pair.2.simplified a))
            (body.simplified a)) := by
  rw [simplified_eq]
  dsimp only [of, Shape.optimized]
  split
  · rw [simplified, tree_eq]
    rfl
  · rw [Shape.tree, treesOfPairs_eq_map, List.map_map]
    rfl

/-- A simplified collection is folded from its simplified items if these are constants. -/
theorem simplified_collection {items : List Node} {shape : List Node → Shape}
    {build : List Value → Option Value}
    (simpler : (shape items).optimized a = .collectionOf (items.map (optimized a)) shape build)
    (parts : ∀ ns, (shape ns).tree = shape (treesOf ns))
    : (Node.of (shape items)).simplified a
      = .of (.collectionOf (items.map (simplified a)) shape build) := by
  have whole {ns : List Node} : (shape ns).tree = shape (ns.map tree) := by
    rw [parts, treesOf_eq_map]
  rw [simplified_eq, ← map_tree_optimized, ← Shape.tree_collectionOf whole, ← simpler]
  rfl

end Node

end IncrementalLisp
