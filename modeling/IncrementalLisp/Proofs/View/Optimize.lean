import IncrementalLisp.Node.Optimize
import IncrementalLisp.Proofs.View.Node
import IncrementalLisp.Proofs.View.Primitive

/-! Simplification in a view. What is seen of a program is simplified to what is seen of the simpler
program.
-/

namespace IncrementalLisp

variable {V : View} {a : Arrangement}

/-- Several nodes are seen with their constants, if all of them have some. Witness: induction on the
nodes.
-/
theorem constants?_seen (ns : List Node)
    : constants? (ns.map (Node.seen V)) = (constants? ns).map (List.map (Value.seen V)) := by
  unfold constants?
  induction ns with
  | nil => rfl
  | cons n rest ih =>
      rw [List.map_cons, List.mapM_cons, List.mapM_cons, Node.constant?_seen, ih]
      cases n.constant? <;> cases rest.mapM Node.constant? <;> rfl

/-- A map of items is seen item by item. -/
theorem mapOfItems?_seen (items : List Value)
    : mapOfItems? a (items.map (Value.seen V)) = (mapOfItems? a items).map (Value.seen V) := by
  unfold mapOfItems?
  rw [List.length_map, Value.pairs_seen, Value.mapOf_seen]
  split <;> rfl

/-- The effective nodes of a body are seen one by one. Witness: induction on the nodes. -/
theorem effective_seen (ns : List Node)
    : effective (ns.map (Node.seen V)) = (effective ns).map (Node.seen V) := by
  induction ns with
  | nil => rfl
  | cons n rest ih =>
      cases rest with
      | nil => rfl
      | cons next more =>
          simp only [List.map_cons, effective, Node.isConstant_seen] at ih ⊢
          rw [ih]
          split <;> rfl

namespace Node

variable (n : Node)

/-- A folded node is seen folded to its value as that is seen. -/
theorem foldedTo_seen (v : Value)
    : (n.seen V).foldedTo (v.seen V) = (n.foldedTo v).seen V := by
  have put := locatedAt_seen (constant v) n.source (V := V)
  unfold foldedTo
  rw [source_seen, ← replacedBy_seen, ← put]
  rfl

/-- A collection that is rebuilt is seen rebuilt, folded or not. -/
theorem collection?_seen (items : List Node) (items? : Option (List Node))
    {shape : List Node → Shape} {build : List Value → Option Value}
    (shapes : ∀ ns, shape (ns.map (seen V)) = (shape ns).seen V)
    (builds : ∀ vs, build (vs.map (Value.seen V)) = (build vs).map (Value.seen V))
    : (n.seen V).collection? (items.map (seen V)) (items?.map (List.map (seen V))) shape build
      = (n.collection? items items? shape build).map (seen V) := by
  have built : (constants? ((items?.map (List.map (seen V))).getD (items.map (seen V)))).bind build
      = ((constants? (items?.getD items)).bind build).map (Value.seen V) := by
    rw [Option.getD_map, constants?_seen]
    cases constants? (items?.getD items) with
    | none => rfl
    | some vs => exact builds vs
  unfold collection?
  rw [built]
  cases (constants? (items?.getD items)).bind build with
  | some v => exact congrArg some (foldedTo_seen n v)
  | none =>
      cases items? with
      | none => rfl
      | some changed =>
          exact congrArg some ((congrArg _ (shapes changed)).trans (reshaped_seen n _))

/-- A simplified sequence is seen simplified, by the number of its effective nodes. -/
theorem sequenceOf_seen (body : List Node)
    : (n.seen V).sequenceOf (body.map (seen V)) = (n.sequenceOf body).seen V := by
  unfold sequenceOf
  rw [effective_seen]
  rcases effective body with _ | ⟨only, _ | ⟨second, rest⟩⟩
  · exact replacedBy_seen n (constant .nil)
  · exact replacedBy_seen n only
  · have shape := reshaped_seen n (.sequence (only :: second :: rest)) (V := V)
    simpa using shape

/-- A simplified conditional is seen simplified, by the constant of its test. -/
theorem conditionalOf_seen (test yes no : Node)
    : (n.seen V).conditionalOf (test.seen V) (yes.seen V) (no.seen V)
      = (n.conditionalOf test yes no).seen V := by
  unfold conditionalOf
  rw [constant?_seen]
  cases test.constant? with
  | none => exact reshaped_seen n (.conditional test yes no)
  | some v =>
      dsimp only [Option.map_some]
      rw [Value.isTruthy_seen, ← replacedBy_seen]
      split <;> rfl

end Node

mutual

/-- What is seen of a node is simplified like the node. Witness: induction on the node. -/
theorem Node.optimized?_seen
    : ∀ n : Node, (n.seen V).optimized? a = (n.optimized? a).map (Node.seen V)
  | ⟨shape, recorded, source, identity⟩ =>
      Shape.optimizedIn?_seen shape (Node.mk shape recorded source identity)
termination_by structural n => n

/-- A simplified shape is seen simplified, part by part. -/
theorem Shape.optimizedIn?_seen
    : ∀ (s : Shape) (n : Node),
        (s.seen V).optimizedIn? a (n.seen V) = (s.optimizedIn? a n).map (Node.seen V)
  | .constant _, _ | .lookup _, _ | .invoke _ _ _, _ | .invokeStatic _ _ _, _ | .cast _ _, _
  | .instanceOf _ _, _ => rfl
  | .apply f args, n => by
      rw [Shape.seen, Shape.optimizedIn?, Shape.optimizedIn?, Node.optimized?_seen f,
        optimizedAll?_seen args]
      have shape (f' : Node) (args' : List Node) := Node.reshaped_seen n (.apply f' args') (V := V)
      cases f.optimized? a <;> cases optimizedAll? a args <;>
        first | rfl | exact congrArg some (shape _ _)
  | .define s expr, n => by
      rw [Shape.seen, Shape.optimizedIn?, Shape.optimizedIn?, Node.optimized?_seen expr]
      cases expr.optimized? a with
      | none => rfl
      | some e => exact congrArg some (Node.reshaped_seen n (.define s e))
  | .sequence body, n => by
      rw [Shape.seen, Shape.optimizedIn?, Shape.optimizedIn?, optimizedAll?_seen body,
        Option.getD_map, seenNodes_eq_map, Node.sequenceOf_seen]
      rfl
  | .conditional test yes no, n => by
      rw [Shape.seen, Shape.optimizedIn?, Shape.optimizedIn?, Node.optimized?_seen test,
        Node.optimized?_seen yes, Node.optimized?_seen no, Option.getD_map,
        Option.getD_map, Option.getD_map, Node.conditionalOf_seen]
      rfl
  | .binding pairs body, n => by
      have none? : (seenPairs V pairs).isEmpty = pairs.isEmpty := by cases pairs <;> rfl
      rw [Shape.seen, Shape.optimizedIn?, Shape.optimizedIn?, none?,
        Node.optimized?_seen body, optimizedPairs?_seen pairs, Option.getD_map,
        Option.getD_map]
      split
      · exact congrArg some (Node.replacedBy_seen n _)
      · exact congrArg some (Node.reshaped_seen n (.binding _ _))
  | .lambda params rest body, n => by
      rw [Shape.seen, Shape.optimizedIn?, Shape.optimizedIn?, Node.optimized?_seen body]
      cases body.optimized? a with
      | none => rfl
      | some b => exact congrArg some (Node.reshaped_seen n (.lambda params rest b))
  | .expander continuation params body, n => by
      rw [Shape.seen, Shape.optimizedIn?, Shape.optimizedIn?, Node.optimized?_seen body]
      cases body.optimized? a with
      | none => rfl
      | some b => exact congrArg some (Node.reshaped_seen n (.expander continuation params b))
  | .quote form _, n => congrArg some (Node.foldedTo_seen n form)
  | .vector items, n => by
      rw [Shape.seen, Shape.optimizedIn?, Shape.optimizedIn?, optimizedAll?_seen items,
        seenNodes_eq_map, funext (seenNodes_eq_map V)]
      exact n.collection?_seen _ _ (fun ns => by simp) fun vs => by simp
  | .list items, n => by
      rw [Shape.seen, Shape.optimizedIn?, Shape.optimizedIn?, optimizedAll?_seen items,
        seenNodes_eq_map, funext (seenNodes_eq_map V)]
      exact n.collection?_seen _ _ (fun ns => by simp) fun vs => by simp
  | .hashMap items, n => by
      rw [Shape.seen, Shape.optimizedIn?, Shape.optimizedIn?, optimizedAll?_seen items,
        seenNodes_eq_map, funext (seenNodes_eq_map V)]
      exact n.collection?_seen _ _ (fun ns => by simp) mapOfItems?_seen
  | .set items, n => by
      rw [Shape.seen, Shape.optimizedIn?, Shape.optimizedIn?, optimizedAll?_seen items,
        seenNodes_eq_map, funext (seenNodes_eq_map V)]
      exact n.collection?_seen _ _ (fun ns => by simp) fun vs => by simp
termination_by structural s => s

/-- So are several nodes. -/
theorem optimizedAll?_seen
    : ∀ ns : List Node, optimizedAll? a (seenNodes V ns) = (optimizedAll? a ns).map (seenNodes V)
  | [] => rfl
  | n :: rest => by
      rw [seenNodes, optimizedAll?, optimizedAll?, Node.optimized?_seen n,
        optimizedAll?_seen rest]
      cases n.optimized? a <;> cases optimizedAll? a rest <;> rfl
termination_by structural ns => ns

/-- So are pairs. -/
theorem optimizedPairs?_seen
    : ∀ ps : List (Symbol × Node),
        optimizedPairs? a (seenPairs V ps) = (optimizedPairs? a ps).map (seenPairs V)
  | [] => rfl
  | (_, n) :: rest => by
      rw [seenPairs, optimizedPairs?, optimizedPairs?, Node.optimized?_seen n,
        optimizedPairs?_seen rest]
      cases n.optimized? a <;> cases optimizedPairs? a rest <;> rfl
termination_by structural ps => ps

end

/-- A simplified node is seen simplified, changed or not. -/
theorem Node.optimized_seen (n : Node)
    : (n.seen V).optimized a = (n.optimized a).seen V := by
  unfold Node.optimized
  rw [optimized?_seen, Option.getD_map]

end IncrementalLisp
