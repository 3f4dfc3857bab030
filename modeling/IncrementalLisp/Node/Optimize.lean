import IncrementalLisp.Node.Specialize
import IncrementalLisp.Value.Collection

/-! Simplifying without a context: quotes become constants, conditionals on a constant become one
of their branches, constants before the end of a sequence are dropped, and collections of
constants become constant collections, the tables among them arranged as given. Host operations are
left alone. The answer is none where it keeps the node as it is.
-/

namespace IncrementalLisp

/-- The values of nodes that are all constant. -/
def constants? (nodes : List Node)
    : Option (List Value) :=
  nodes.mapM Node.constant?

/-- The map of alternating keys and values, if their number is even. -/
def mapOfItems? (a : Arrangement) (items : List Value)
    : Option Value :=
  if items.length % 2 == 0 then some (.mapOf a (Value.pairs items)) else none

/-- The nodes of a sequence that matter: the last one, and before it those that are not
constant.
-/
def effective : List Node → List Node
  | [] => []
  | [last] => [last]
  | n :: rest => if n.isConstant then effective rest else n :: effective rest

namespace Node

/-- A constant in the place of a node. -/
def foldedTo (n : Node) (v : Value)
    : Node :=
  n.replacedBy ((constant v).locatedAt n.source)

/-- A collection whose items have been optimized: its value if all of them are constant. -/
def collection? (n : Node) (items : List Node) (items? : Option (List Node))
    (shape : List Node → Shape) (build : List Value → Option Value)
    : Option Node :=
  match (constants? (items?.getD items)).bind build with
  | some v => some (n.foldedTo v)
  | none => items?.map fun changed => n.reshaped (shape changed)

/-- A sequence whose nodes have been optimized. -/
def sequenceOf (n : Node) (body : List Node)
    : Node :=
  match effective body with
  | [] => n.replacedBy (constant .nil)
  | [only] => n.replacedBy only
  | kept => n.reshaped (.sequence kept)

/-- A conditional whose parts have been optimized. -/
def conditionalOf (n test yes no : Node)
    : Node :=
  match test.constant? with
  | some v => n.replacedBy (if v.isTruthy then yes else no)
  | none => n.reshaped (.conditional test yes no)

end Node

section Simpler

variable (a : Arrangement)

mutual

/-- A node in its simpler form, if it changes at all. Sequences, conditionals and bindings always
count as changed.
-/
def Node.optimized? : Node → Option Node
  | ⟨shape, recorded, source, identity⟩ =>
      shape.optimizedIn? (Node.mk shape recorded source identity)
termination_by structural n => n

/-- The node of a shape in its simpler form, if it changes at all. -/
def Shape.optimizedIn? : Shape → Node → Option Node
  | .constant _, _ => none
  | .lookup _, _ => none
  | .apply f args, n =>
      match f.optimized?, optimizedAll? args with
      | none, none => none
      | f', args' => some (n.reshaped (.apply (f'.getD f) (args'.getD args)))
  | .define s expr, n => expr.optimized?.map fun e => n.reshaped (.define s e)
  | .sequence body, n => some (n.sequenceOf ((optimizedAll? body).getD body))
  | .conditional test yes no, n =>
      some (n.conditionalOf (test.optimized?.getD test) (yes.optimized?.getD yes)
        (no.optimized?.getD no))
  | .binding pairs body, n =>
      let body' := body.optimized?.getD body
      if pairs.isEmpty then some (n.replacedBy body')
      else some (n.reshaped (.binding ((optimizedPairs? pairs).getD pairs) body'))
  | .lambda params rest body, n =>
      body.optimized?.map fun b => n.reshaped (.lambda params rest b)
  | .expander continuation params body, n =>
      body.optimized?.map fun b => n.reshaped (.expander continuation params b)
  | .quote form _, n => some (n.foldedTo form)
  | .vector items, n => n.collection? items (optimizedAll? items) .vector (some ∘ .vector)
  | .list items, n => n.collection? items (optimizedAll? items) .list (some ∘ .listOf)
  | .hashMap items, n => n.collection? items (optimizedAll? items) .hashMap (mapOfItems? a)
  | .set items, n => n.collection? items (optimizedAll? items) .set (some ∘ .setOf a)
  | .invoke _ _ _, _ => none
  | .invokeStatic _ _ _, _ => none
  | .cast _ _, _ => none
  | .instanceOf _ _, _ => none
termination_by structural s => s

/-- Several nodes in their simpler forms, if any of them changes. -/
def optimizedAll? : List Node → Option (List Node)
  | [] => none
  | n :: rest => consChanged n rest n.optimized? (optimizedAll? rest)
termination_by structural ns => ns

/-- A list of bindings with expressions in their simpler forms, if any of them changes. -/
def optimizedPairs? : List (Symbol × Node) → Option (List (Symbol × Node))
  | [] => none
  | (s, n) :: rest => consChanged (s, n) rest (n.optimized?.map (s, ·)) (optimizedPairs? rest)
termination_by structural ps => ps

end

/-- A node in its simpler form. -/
def Node.optimized (n : Node)
    : Node :=
  (n.optimized? a).getD n

end Simpler

end IncrementalLisp
