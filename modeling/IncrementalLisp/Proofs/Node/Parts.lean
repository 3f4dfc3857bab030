import IncrementalLisp.Proofs.Node.Optimized

/-! The parts of nodes. A node is larger than each of its parts, so that what a node has whenever
its parts have it, every node has.
-/

namespace IncrementalLisp

/-- The nodes that a shape is made of. -/
def Shape.parts : Shape → List Node
  | .constant _ => []
  | .lookup _ => []
  | .apply f args => f :: args
  | .define _ expr => [expr]
  | .sequence body => body
  | .conditional test yes no => [test, yes, no]
  | .binding pairs body => body :: pairs.map (·.2)
  | .lambda _ _ body => [body]
  | .expander _ _ body => [body]
  | .quote _ _ => []
  | .vector items => items
  | .list items => items
  | .hashMap items => items
  | .set items => items
  | .invoke target _ args => target :: args
  | .invokeStatic _ _ args => args
  | .cast _ expr => [expr]
  | .instanceOf type expr => [type, expr]

/-- The expression of a pair is smaller than the pairs, for recursion over them. -/
theorem sizeOf_lt_of_mem_pairs {pairs : List (Symbol × Node)} {pair : Symbol × Node}
    (member : pair ∈ pairs)
    : sizeOf pair.2 < sizeOf pairs := by
  obtain ⟨s, n⟩ := pair
  have smaller := List.sizeOf_lt_of_mem member
  simp only [Prod.mk.sizeOf_spec] at smaller ⊢
  omega

/-- A part of a shape is smaller than the shape, by cases on the shape. -/
theorem Shape.sizeOf_lt_of_mem_parts {s : Shape} {part : Node} (member : part ∈ s.parts)
    : sizeOf part < sizeOf s := by
  cases s with
  | constant | lookup | quote => cases member
  | sequence | vector | list | hashMap | set | invokeStatic =>
      have smaller := List.sizeOf_lt_of_mem member
      simp only [parts, sequence.sizeOf_spec, vector.sizeOf_spec, list.sizeOf_spec,
        hashMap.sizeOf_spec, set.sizeOf_spec, invokeStatic.sizeOf_spec] at smaller ⊢
      omega
  | apply | invoke =>
      simp only [apply.sizeOf_spec, invoke.sizeOf_spec]
      rcases List.mem_cons.mp member with rfl | member
      · omega
      · have smaller := List.sizeOf_lt_of_mem member
        omega
  | binding =>
      simp only [binding.sizeOf_spec]
      rcases List.mem_cons.mp member with rfl | member
      · omega
      · obtain ⟨pair, listed, rfl⟩ := List.mem_map.mp member
        have smaller := sizeOf_lt_of_mem_pairs listed
        omega
  | define | lambda | expander | cast | conditional | instanceOf =>
      simp only [define.sizeOf_spec, lambda.sizeOf_spec, expander.sizeOf_spec, cast.sizeOf_spec,
        conditional.sizeOf_spec, instanceOf.sizeOf_spec]
      simp only [parts, List.mem_cons, List.not_mem_nil, or_false] at member
      rcases member with rfl | rfl | rfl <;> omega

/-- What holds of a node whenever it holds of its parts holds of every node. -/
theorem Node.induction_parts {motive : Node → Prop}
    (step : ∀ n : Node, (∀ part ∈ n.shape.parts, motive part) → motive n) (n : Node)
    : motive n := by
  induction size : sizeOf n using Nat.strongRecOn generalizing n with
  | ind _ ih =>
      subst size
      refine step n fun part member => ih (sizeOf part) ?_ part rfl
      obtain ⟨shape, _, _, _⟩ := n
      have smaller := Shape.sizeOf_lt_of_mem_parts member
      simp only [Node.mk.sizeOf_spec]
      dsimp only at smaller
      omega

-----------------------------------------------------------------------------------------
-- Properties of all shapes in a node
-----------------------------------------------------------------------------------------

/-- (n.Everywhere p) says that the shape of a node, and that of every node in it, has a property. -/
inductive Node.Everywhere (p : Shape → Prop) : Node → Prop where
  | of {n : Node} (here : p n.shape) (parts : ∀ part ∈ n.shape.parts, part.Everywhere p)
      : Everywhere p n

namespace Node.Everywhere

variable {p : Shape → Prop} {n : Node}

/-- The shape of the node itself has the property. -/
theorem here (everywhere : n.Everywhere p)
    : p n.shape := by
  cases everywhere
  assumption

/-- The parts of the node have it everywhere, by the definition. -/
theorem part (everywhere : n.Everywhere p) {inner : Node} (member : inner ∈ n.shape.parts)
    : inner.Everywhere p := by
  obtain ⟨-, parts⟩ := everywhere
  exact parts inner member

end Node.Everywhere

/-- (s.LeavesTable a) says that a set or a map of a shape holds at most one item, or is not
simplified to a constant, since not all of its items are.
-/
def Shape.LeavesTable (a : Arrangement)
    : Shape → Prop
  | .set items => items.length ≤ 1 ∨ constants? (items.map (Node.optimized a)) = none
  | .hashMap items => items.length / 2 ≤ 1 ∨ constants? (items.map (Node.optimized a)) = none
  | _ => True

/-- (n.LeavesTables a) says that no set or map of several items in a node, at any depth, is
simplified to a constant.
-/
abbrev Node.LeavesTables (a : Arrangement) (n : Node)
    : Prop :=
  n.Everywhere (Shape.LeavesTable a)

/-- (ConstantsAside a body) says that those nodes of a sequence which are simplified to constants
come before all of the others or after them.
-/
def ConstantsAside (a : Arrangement) (body : List Node)
    : Prop :=
  ∃ first middle last, body = first ++ (middle ++ last)
    ∧ (∀ n ∈ first, (n.optimized a).isConstant)
    ∧ (∀ n ∈ middle, ¬(n.optimized a).isConstant)
    ∧ ∀ n ∈ last, (n.optimized a).isConstant

/-- (s.ConstantsAside a) says that the nodes of a shape are such a sequence, if it is one. -/
def Shape.ConstantsAside (a : Arrangement)
    : Shape → Prop
  | .sequence body => IncrementalLisp.ConstantsAside a body
  | _ => True

/-- (n.DropsAside a) says that simplification leaves out no constant of a sequence in a node, at any
depth, that stands between two nodes which are none.
-/
abbrev Node.DropsAside (a : Arrangement) (n : Node)
    : Prop :=
  n.Everywhere (Shape.ConstantsAside a)

-----------------------------------------------------------------------------------------
-- Programs to simplify
-----------------------------------------------------------------------------------------

/-- (n.Foldable kept order a) says that a node defines nothing, refers to some contexts only, leaves
its tables as they are unless the order of tables is that of its simplification, and loses no
constant between other nodes of a sequence.
-/
structure Node.Foldable (kept : List ContextId) (order : Option Arrangement) (a : Arrangement)
    (n : Node) : Prop where
  defines : n.DefinesNothing
  among : Among (· ∈ kept) n.contexts
  tables : order = some a ∨ n.LeavesTables a
  drops : n.DropsAside a

/-- What defines nothing and refers to some contexts only has such parts. -/
theorem Node.definesNothing_part {kept : List ContextId} {n : Node} (defines : n.DefinesNothing)
    (among : Among (· ∈ kept) n.contexts) {part : Node} (member : part ∈ n.shape.parts)
    : part.DefinesNothing ∧ Among (· ∈ kept) part.contexts := by
  obtain ⟨shape, _, _, _⟩ := n
  rw [Node.DefinesNothing] at defines
  rw [Node.contexts] at among
  dsimp only at member
  cases shape with
  | constant | lookup | quote => cases member
  | define => exact defines.elim
  | sequence | vector | list | hashMap | set | invokeStatic =>
      simp only [Shape.DefinesNothing, allDefineNothing_iff] at defines
      simp only [Shape.contexts, among_contextsOfNodes] at among
      exact ⟨defines part member, among part member⟩
  | apply | invoke =>
      simp only [Shape.DefinesNothing, allDefineNothing_iff] at defines
      simp only [Shape.contexts, among_append, among_contextsOfNodes] at among
      rcases List.mem_cons.mp member with rfl | member
      · exact ⟨defines.1, among.1⟩
      · exact ⟨defines.2 part member, among.2 part member⟩
  | binding =>
      simp only [Shape.DefinesNothing, pairsDefineNothing_iff] at defines
      simp only [Shape.contexts, among_append, among_contextsOfPairs] at among
      rcases List.mem_cons.mp member with rfl | member
      · exact ⟨defines.2, among.2⟩
      · obtain ⟨pair, listed, rfl⟩ := List.mem_map.mp member
        exact ⟨defines.1 pair listed, among.1 pair listed⟩
  | lambda | expander | cast | conditional | instanceOf =>
      simp only [Shape.DefinesNothing] at defines
      simp only [Shape.contexts, among_append] at among
      simp only [Shape.parts, List.mem_cons, List.not_mem_nil, or_false] at member
      rcases member with rfl | rfl | rfl <;> tauto

/-- The parts of a foldable node are foldable. -/
theorem Node.Foldable.part {kept : List ContextId} {order : Option Arrangement} {a : Arrangement}
    {n : Node} (foldable : n.Foldable kept order a) {part : Node} (member : part ∈ n.shape.parts)
    : part.Foldable kept order a := by
  obtain ⟨defines, among⟩ := Node.definesNothing_part foldable.defines foldable.among member
  exact ⟨defines, among, foldable.tables.imp_right fun leaves => leaves.part member,
    foldable.drops.part member⟩

end IncrementalLisp
