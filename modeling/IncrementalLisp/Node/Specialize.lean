import IncrementalLisp.Node.Basic

/-! Substitution of lexical values for references. Names bound inside a node shadow the
substitution. Host operations are left alone: their references are resolved when they are
evaluated. The answer is none where nothing changes, so an unchanged node stays the same node.
-/

namespace IncrementalLisp

/-- A list with its first item and its rest replaced where they changed, if either did. -/
def consChanged {α : Type} (item : α) (rest : List α) (item? : Option α)
    (rest? : Option (List α))
    : Option (List α) :=
  match item?, rest? with
  | none, none => none
  | _, _ => some (item?.getD item :: rest?.getD rest)

mutual

/-- A node with values for the references to bound names, if there are any. -/
def Node.specialized? : Node → Bindings → Option Node
  | ⟨.lookup s, recorded, source, identity⟩, b =>
      (b.lexical? s).map fun v =>
        (Node.mk (.lookup s) recorded source identity).replacedBy
          ((Node.constant v).locatedAt source)
  | ⟨shape, recorded, source, identity⟩, b =>
      (shape.specialized? b).map (Node.mk shape recorded source identity).reshaped
termination_by structural n => n

/-- A shape with values for the references to bound names, if there are any in its parts. -/
def Shape.specialized? : Shape → Bindings → Option Shape
  | .constant _, _ => none
  | .lookup _, _ => none
  | .apply f args, b =>
      match f.specialized? b, specializedAll? args b with
      | none, none => none
      | f', args' => some (.apply (f'.getD f) (args'.getD args))
  | .define s expr, b => (expr.specialized? b).map (.define s)
  | .sequence body, b => (specializedAll? body b).map .sequence
  | .conditional test yes no, b =>
      match test.specialized? b, yes.specialized? b, no.specialized? b with
      | none, none, none => none
      | test', yes', no' => some (.conditional (test'.getD test) (yes'.getD yes) (no'.getD no))
  | .binding pairs body, b =>
      match specializedPairs? pairs b, body.specialized? (b.eraseAll (pairs.map (·.1))) with
      | none, none => none
      | pairs', body' => some (.binding (pairs'.getD pairs) (body'.getD body))
  | .lambda params rest body, b =>
      (body.specialized? (b.eraseAll (params ++ rest.toList))).map (.lambda params rest)
  | .expander continuation params body, b =>
      (body.specialized? (b.eraseAll (params ++ [continuation]))).map
        (.expander continuation params)
  | .quote _ _, _ => none
  | .vector items, b => (specializedAll? items b).map .vector
  | .list items, b => (specializedAll? items b).map .list
  | .hashMap items, b => (specializedAll? items b).map .hashMap
  | .set items, b => (specializedAll? items b).map .set
  | .invoke _ _ _, _ => none
  | .invokeStatic _ _ _, _ => none
  | .cast _ _, _ => none
  | .instanceOf _ _, _ => none
termination_by structural s => s

/-- Several nodes with values for references, if there are any. -/
def specializedAll? : List Node → Bindings → Option (List Node)
  | [], _ => none
  | n :: rest, b => consChanged n rest (n.specialized? b) (specializedAll? rest b)
termination_by structural ns => ns

/-- A list of bindings with values for references in its expressions, if there are any. -/
def specializedPairs? : List (Symbol × Node) → Bindings → Option (List (Symbol × Node))
  | [], _ => none
  | (s, n) :: rest, b =>
      consChanged (s, n) rest ((n.specialized? b).map (s, ·)) (specializedPairs? rest b)
termination_by structural ps => ps

end

/-- A node with values for the references to bound names. -/
def Node.specialized (n : Node) (b : Bindings)
    : Node :=
  (n.specialized? b).getD n

end IncrementalLisp
