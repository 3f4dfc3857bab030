import IncrementalLisp.Proofs.Node.References
import IncrementalLisp.Proofs.Node.Specialized

/-! What simplification makes of a node, by its shape. Only the shape of a node matters to its
evaluation, and the shape of a simplified node depends only on the shape of the node.
-/

namespace IncrementalLisp

-----------------------------------------------------------------------------------------
-- Nodes without definitions
-----------------------------------------------------------------------------------------

mutual

/-- (n.DefinesNothing) says that there is no definition at any depth of the node, in the bodies of
functions and expanders included.
-/
def Node.DefinesNothing : Node → Prop
  | ⟨shape, _, _, _⟩ => shape.DefinesNothing
termination_by structural n => n

/-- There is no definition in the parts of a shape, nor is it one itself. -/
def Shape.DefinesNothing : Shape → Prop
  | .constant _ => True
  | .lookup _ => True
  | .apply f args => f.DefinesNothing ∧ AllDefineNothing args
  | .define _ _ => False
  | .sequence body => AllDefineNothing body
  | .conditional test yes no =>
      test.DefinesNothing ∧ yes.DefinesNothing ∧ no.DefinesNothing
  | .binding pairs body => PairsDefineNothing pairs ∧ body.DefinesNothing
  | .lambda _ _ body => body.DefinesNothing
  | .expander _ _ body => body.DefinesNothing
  | .quote _ _ => True
  | .vector items => AllDefineNothing items
  | .list items => AllDefineNothing items
  | .hashMap items => AllDefineNothing items
  | .set items => AllDefineNothing items
  | .invoke target _ args => target.DefinesNothing ∧ AllDefineNothing args
  | .invokeStatic _ _ args => AllDefineNothing args
  | .cast _ expr => expr.DefinesNothing
  | .instanceOf type expr => type.DefinesNothing ∧ expr.DefinesNothing
termination_by structural s => s

/-- There is no definition in any of several nodes. -/
def AllDefineNothing : List Node → Prop
  | [] => True
  | n :: rest => n.DefinesNothing ∧ AllDefineNothing rest
termination_by structural ns => ns

/-- There is no definition in the expressions of a list of bindings. -/
def PairsDefineNothing : List (Symbol × Node) → Prop
  | [] => True
  | (_, n) :: rest => n.DefinesNothing ∧ PairsDefineNothing rest
termination_by structural ps => ps

end

/-- Nodes define nothing together if each of them does not. Witness: induction on the nodes. -/
theorem allDefineNothing_iff {ns : List Node}
    : AllDefineNothing ns ↔ ∀ n ∈ ns, n.DefinesNothing := by
  induction ns with
  | nil => simp [AllDefineNothing]
  | cons n rest ih => simp [AllDefineNothing, ih]

/-- Neither do pairs if none of their expressions does. Witness: induction on the pairs. -/
theorem pairsDefineNothing_iff {ps : List (Symbol × Node)}
    : PairsDefineNothing ps ↔ ∀ pair ∈ ps, pair.2.DefinesNothing := by
  induction ps with
  | nil => simp [PairsDefineNothing]
  | cons pair rest ih => simp [PairsDefineNothing, ih]

-----------------------------------------------------------------------------------------
-- Simplified shapes
-----------------------------------------------------------------------------------------

/-- The shape of a sequence of simplified nodes: that of the only one that matters, if there is
only one.
-/
def Shape.sequenceOf (body : List Node)
    : Shape :=
  match effective body with
  | [] => .constant .nil
  | [only] => only.shape
  | kept => .sequence kept

/-- The shape of a collection of simplified nodes: a constant, if they are all constant. -/
def Shape.collectionOf (items : List Node) (shape : List Node → Shape)
    (build : List Value → Option Value)
    : Shape :=
  match (constants? items).bind build with
  | some v => .constant v
  | none => shape items

/-- The simpler form of a shape. -/
def Shape.optimized (a : Arrangement)
    : Shape → Shape
  | .apply f args => .apply (f.optimized a) (args.map (Node.optimized a))
  | .define s expr => .define s (expr.optimized a)
  | .sequence body => .sequenceOf (body.map (Node.optimized a))
  | .conditional test yes no =>
      match (test.optimized a).constant? with
      | some v => (if v.isTruthy then yes.optimized a else no.optimized a).shape
      | none => .conditional (test.optimized a) (yes.optimized a) (no.optimized a)
  | .binding pairs body =>
      if pairs.isEmpty then (body.optimized a).shape
      else .binding (pairs.map fun pair => (pair.1, pair.2.optimized a)) (body.optimized a)
  | .lambda params rest body => .lambda params rest (body.optimized a)
  | .expander continuation params body => .expander continuation params (body.optimized a)
  | .quote form _ => .constant form
  | .vector items => .collectionOf (items.map (Node.optimized a)) .vector (some ∘ .vector)
  | .list items => .collectionOf (items.map (Node.optimized a)) .list (some ∘ .listOf)
  | .hashMap items => .collectionOf (items.map (Node.optimized a)) .hashMap (mapOfItems? a)
  | .set items => .collectionOf (items.map (Node.optimized a)) .set (some ∘ .setOf a)
  | other => other

section Simplified

variable {a : Arrangement}

/-- Simplified nodes, changed or not, are each simplified. Witness: induction on the nodes. -/
theorem optimizedAll?_getD (ns : List Node)
    : (optimizedAll? a ns).getD ns = ns.map (Node.optimized a) := by
  induction ns with
  | nil => rfl
  | cons n rest ih =>
      rw [optimizedAll?, List.map_cons, ← ih, Node.optimized]
      cases n.optimized? a <;> cases optimizedAll? a rest <;> rfl

/-- So are the expressions of simplified pairs. Witness: induction on the pairs. -/
theorem optimizedPairs?_getD (ps : List (Symbol × Node))
    : (optimizedPairs? a ps).getD ps = ps.map fun pair => (pair.1, pair.2.optimized a) := by
  induction ps with
  | nil => rfl
  | cons pair rest ih =>
      obtain ⟨s, n⟩ := pair
      rw [optimizedPairs?, List.map_cons, ← ih, Node.optimized]
      cases n.optimized? a <;> cases optimizedPairs? a rest <;> rfl

/-- A folded node is a constant. -/
theorem Node.shape_foldedTo (n : Node) (v : Value)
    : (n.foldedTo v).shape = .constant v := by
  rw [Node.foldedTo, Node.shape_replacedBy, Node.shape_locatedAt]
  rfl

/-- A simplified sequence has the shape of its effective nodes, by their number. -/
theorem Node.shape_sequenceOf (n : Node) (body : List Node)
    : (n.sequenceOf body).shape = .sequenceOf body := by
  unfold Node.sequenceOf Shape.sequenceOf
  rcases effective body with _ | ⟨only, _ | ⟨next, rest⟩⟩
  · exact Node.shape_replacedBy _ _
  · exact Node.shape_replacedBy _ _
  · rfl

/-- A simplified conditional has the shape of a branch if its test is a constant. -/
theorem Node.shape_conditionalOf (n test yes no : Node)
    : (n.conditionalOf test yes no).shape
      = match test.constant? with
        | some v => (if v.isTruthy then yes else no).shape
        | none => .conditional test yes no := by
  unfold Node.conditionalOf
  cases test.constant? with
  | none => rfl
  | some v => exact Node.shape_replacedBy _ _

/-- A collection of simplified nodes, whether or not they were changed. -/
theorem Node.shape_collection? {n : Node} {items : List Node} {shape : List Node → Shape}
    (same : n.shape = shape items) (build : List Value → Option Value)
    : ((n.collection? items (optimizedAll? a items) shape build).getD n).shape
      = .collectionOf (items.map (Node.optimized a)) shape build := by
  unfold Node.collection? Shape.collectionOf
  rw [optimizedAll?_getD]
  cases (constants? (items.map (Node.optimized a))).bind build with
  | some v => exact Node.shape_foldedTo n v
  | none =>
      dsimp only
      rw [← optimizedAll?_getD]
      cases optimizedAll? a items with
      | none => exact same
      | some others => rfl

/-- The shape of a simplified node is the simpler form of its shape. -/
theorem Node.shape_optimized (n : Node)
    : (n.optimized a).shape = n.shape.optimized a := by
  obtain ⟨shape, recorded, source, identity⟩ := n
  unfold Node.optimized
  rw [Node.optimized?]
  cases shape with
  | constant | lookup | invoke | invokeStatic | cast | instanceOf => rfl
  | apply f args =>
      rw [Shape.optimizedIn?]
      dsimp only [Shape.optimized, Node.optimized]
      rw [← optimizedAll?_getD]
      cases f.optimized? a <;> cases optimizedAll? a args <;> rfl
  | define s expr =>
      rw [Shape.optimizedIn?]
      dsimp only [Shape.optimized, Node.optimized]
      cases expr.optimized? a <;> rfl
  | sequence body =>
      rw [Shape.optimizedIn?, optimizedAll?_getD]
      exact Node.shape_sequenceOf _ _
  | conditional test yes no =>
      rw [Shape.optimizedIn?]
      exact Node.shape_conditionalOf _ _ _ _
  | binding pairs body =>
      rw [Shape.optimizedIn?, optimizedPairs?_getD]
      dsimp only [Shape.optimized, Node.optimized]
      split
      · exact Node.shape_replacedBy _ _
      · rfl
  | lambda params rest body =>
      rw [Shape.optimizedIn?]
      dsimp only [Shape.optimized, Node.optimized]
      cases body.optimized? a <;> rfl
  | expander continuation params body =>
      rw [Shape.optimizedIn?]
      dsimp only [Shape.optimized, Node.optimized]
      cases body.optimized? a <;> rfl
  | quote form isSyntax => exact Node.shape_foldedTo _ _
  | vector items => exact Node.shape_collection? (n := ⟨.vector items, _, _, _⟩) rfl _
  | list items => exact Node.shape_collection? (n := ⟨.list items, _, _, _⟩) rfl _
  | hashMap items => exact Node.shape_collection? (n := ⟨.hashMap items, _, _, _⟩) rfl _
  | set items => exact Node.shape_collection? (n := ⟨.set items, _, _, _⟩) rfl _

end Simplified

/-- A node with a constant has the shape of that constant. -/
theorem Node.shape_of_constant? {n : Node} {v : Value} (constant : n.constant? = some v)
    : n.shape = .constant v := by
  unfold Node.constant? at constant
  split at constant
  · rename_i w shape
    rw [shape, Option.some.inj constant]
  · cases constant

/-- Nodes with constants have their shapes, one by one. Witness: induction on the nodes. -/
theorem constants?_eq_some {ns : List Node} {vs : List Value} (constant : constants? ns = some vs)
    : List.Forall₂ (fun n v => n.shape = .constant v) ns vs := by
  unfold constants? at constant
  induction ns generalizing vs with
  | nil =>
      obtain rfl : [] = vs := by simpa using constant
      exact .nil
  | cons n rest ih =>
      simp only [List.mapM_cons, Option.bind_eq_bind, Option.bind_eq_some_iff, Option.pure_def,
        Option.some.injEq] at constant
      obtain ⟨v, first, others, later, rfl⟩ := constant
      exact .cons (Node.shape_of_constant? first) (ih later)

/-- The first node of several ones is effective unless it is a constant. -/
theorem effective_cons {n : Node} {rest : List Node} (more : rest ≠ [])
    : effective (n :: rest) = if n.isConstant then effective rest else n :: effective rest := by
  cases rest with
  | nil => exact absurd rfl more
  | cons next rest =>
      rw [effective]
      intro none
      cases none

/-- A sequence that is not empty has an effective node, its last one. Witness: induction on the
body.
-/
theorem effective_ne_nil {body : List Node} (some? : body ≠ [])
    : effective body ≠ [] := by
  induction body with
  | nil => exact absurd rfl some?
  | cons n rest ih =>
      cases rest with
      | nil => exact List.cons_ne_nil _ _
      | cons =>
          rw [effective_cons (List.cons_ne_nil _ _)]
          split
          · exact ih (List.cons_ne_nil _ _)
          · exact List.cons_ne_nil _ _

end IncrementalLisp
