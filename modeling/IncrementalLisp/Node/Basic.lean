import IncrementalLisp.Value.Basic

/-! Building nodes, and the free symbols a node refers to. A node made from another keeps the
recorded dependencies and the place of the node it stands for, but it is a new object: its
identity is cleared.
-/

namespace IncrementalLisp

namespace Node

/-- A new node of a shape. -/
def of (shape : Shape)
    : Node :=
  ⟨shape, ∅, none, none⟩

/-- A fixed value. -/
abbrev constant (value : Value)
    : Node :=
  of (.constant value)

/-- A reference. -/
abbrev lookup (symbol : Symbol)
    : Node :=
  of (.lookup symbol)

/-- The value of a constant node. -/
def constant? (n : Node)
    : Option Value :=
  match n.shape with
  | .constant v => some v
  | _ => none

/-- Whether a node is a constant. -/
def isConstant (n : Node)
    : Bool :=
  n.constant?.isSome

end Node

/-- A set without the given symbols. -/
def SymbolSet.without (set : SymbolSet) (symbols : List Symbol)
    : SymbolSet :=
  set.filter (!symbols.contains ·)

/-- A symbol is in a set without some symbols if it is in the set and is none of them, by filtering.
-/
theorem SymbolSet.mem_without {set : SymbolSet} {symbols : List Symbol} {s : Symbol}
    : s ∈ set.without symbols ↔ s ∈ set ∧ s ∉ symbols := by
  unfold SymbolSet.without
  rw [Std.ExtTreeSet.mem_filter]
  simp

mutual

/-- The free symbols of a node and the dependencies recorded on it and on its parts. -/
def Node.dependencies : Node → SymbolSet
  | ⟨shape, recorded, _, _⟩ => shape.dependencies ∪ recorded
termination_by structural n => n

/-- The dependencies of a shape. Names bound by a shape are not free in its body. -/
def Shape.dependencies : Shape → SymbolSet
  | .constant _ => ∅
  | .lookup s => {s}
  | .apply f args => f.dependencies ∪ dependenciesOfAll args
  | .define _ expr => expr.dependencies
  | .sequence body => dependenciesOfAll body
  | .conditional test yes no => test.dependencies ∪ yes.dependencies ∪ no.dependencies
  | .binding pairs body =>
      dependenciesOfPairs pairs ∪ SymbolSet.without body.dependencies (pairs.map (·.1))
  | .lambda params rest body => SymbolSet.without body.dependencies (params ++ rest.toList)
  | .expander continuation params body =>
      SymbolSet.without body.dependencies (params ++ [continuation])
  | .quote _ _ => ∅
  | .vector items => dependenciesOfAll items
  | .list items => dependenciesOfAll items
  | .hashMap items => dependenciesOfAll items
  | .set items => dependenciesOfAll items
  | .invoke target _ args => target.dependencies ∪ dependenciesOfAll args
  | .invokeStatic _ _ args => dependenciesOfAll args
  | .cast _ expr => expr.dependencies
  | .instanceOf type expr => type.dependencies ∪ expr.dependencies
termination_by structural s => s

/-- The dependencies of several nodes. -/
def dependenciesOfAll : List Node → SymbolSet
  | [] => ∅
  | n :: rest => n.dependencies ∪ dependenciesOfAll rest
termination_by structural ns => ns

/-- The dependencies of the expressions in a list of bindings. -/
def dependenciesOfPairs : List (Symbol × Node) → SymbolSet
  | [] => ∅
  | (_, n) :: rest => n.dependencies ∪ dependenciesOfPairs rest
termination_by structural ps => ps

end

namespace Node

/-- The same node with one more dependency. -/
def including (n : Node) (s : Symbol)
    : Node :=
  if n.dependencies.contains s then n
  else { n with recorded := n.recorded.insert s, identity := none }

/-- The same node at a place, if there is one. -/
def locatedAt (n : Node) (source : Option Location)
    : Node :=
  match source with
  | none => n
  | some place => { n with source := some place, identity := none }

/-- The second node in the place of the first, whose recorded dependencies it takes over. -/
def replacedBy (n replacement : Node)
    : Node :=
  n.recorded.toList.foldl including replacement

/-- The same node with another shape. -/
def reshaped (n : Node) (shape : Shape)
    : Node :=
  { n with shape := shape, identity := none }

end Node

end IncrementalLisp
