import IncrementalLisp.Node.Specialize
import IncrementalLisp.Proofs.View.Bindings

/-! Programs in a view. Building nodes and putting values in for names do to what is seen of a
program what they do to the program. Since a program is only given values for the names that it
reads, those that it does not read need not be seen.
-/

namespace IncrementalLisp

variable {V : View}

-----------------------------------------------------------------------------------------
-- Dependencies
-----------------------------------------------------------------------------------------

mutual

/-- What is seen of a node has the same dependencies. Witness: induction on the node. -/
@[simp] theorem Node.dependencies_seen
    : ∀ n : Node, (n.seen V).dependencies = n.dependencies
  | ⟨shape, _, _, _⟩ => by
      rw [Node.seen, Node.dependencies, Node.dependencies, Shape.dependencies_seen shape]
termination_by structural n => n

/-- A shape has the dependencies that it is seen with, part by part. -/
theorem Shape.dependencies_seen
    : ∀ s : Shape, (s.seen V).dependencies = s.dependencies
  | .constant _ | .lookup _ | .quote _ _ => rfl
  | .apply f args => by
      rw [Shape.seen, Shape.dependencies, Shape.dependencies, Node.dependencies_seen f,
        dependenciesOfAll_seen args]
  | .define _ expr => Node.dependencies_seen expr
  | .sequence body => dependenciesOfAll_seen body
  | .conditional test yes no => by
      rw [Shape.seen, Shape.dependencies, Shape.dependencies,
        Node.dependencies_seen test, Node.dependencies_seen yes,
        Node.dependencies_seen no]
  | .binding pairs body => by
      rw [Shape.seen, Shape.dependencies, Shape.dependencies,
        dependenciesOfPairs_seen pairs, Node.dependencies_seen body, fst_seenPairs]
  | .lambda _ _ body => by
      rw [Shape.seen, Shape.dependencies, Shape.dependencies, Node.dependencies_seen body]
  | .expander _ _ body => by
      rw [Shape.seen, Shape.dependencies, Shape.dependencies, Node.dependencies_seen body]
  | .vector items => dependenciesOfAll_seen items
  | .list items => dependenciesOfAll_seen items
  | .hashMap items => dependenciesOfAll_seen items
  | .set items => dependenciesOfAll_seen items
  | .invoke target _ args => by
      rw [Shape.seen, Shape.dependencies, Shape.dependencies,
        Node.dependencies_seen target, dependenciesOfAll_seen args]
  | .invokeStatic _ _ args => dependenciesOfAll_seen args
  | .cast _ expr => Node.dependencies_seen expr
  | .instanceOf type expr => by
      rw [Shape.seen, Shape.dependencies, Shape.dependencies,
        Node.dependencies_seen type, Node.dependencies_seen expr]
termination_by structural s => s

/-- So have several nodes. -/
theorem dependenciesOfAll_seen
    : ∀ ns : List Node, dependenciesOfAll (seenNodes V ns) = dependenciesOfAll ns
  | [] => rfl
  | n :: rest => by
      rw [seenNodes, dependenciesOfAll, dependenciesOfAll, Node.dependencies_seen n,
        dependenciesOfAll_seen rest]
termination_by structural ns => ns

/-- So have pairs. -/
theorem dependenciesOfPairs_seen
    : ∀ ps : List (Symbol × Node),
        dependenciesOfPairs (seenPairs V ps) = dependenciesOfPairs ps
  | [] => rfl
  | (_, n) :: rest => by
      rw [seenPairs, dependenciesOfPairs, dependenciesOfPairs, Node.dependencies_seen n,
        dependenciesOfPairs_seen rest]
termination_by structural ps => ps

end

-----------------------------------------------------------------------------------------
-- Building nodes
-----------------------------------------------------------------------------------------

namespace Node

/-- A new node is seen with its shape. -/
@[simp] theorem of_seen (shape : Shape)
    : (of shape).seen V = of (shape.seen V) :=
  rfl

/-- A node is seen with its constant, as that is seen. -/
@[simp] theorem constant?_seen (n : Node)
    : (n.seen V).constant? = n.constant?.map (Value.seen V) := by
  obtain ⟨shape, recorded, source, identity⟩ := n
  cases shape <;> rfl

/-- It is seen to be a constant if it is. -/
@[simp] theorem isConstant_seen (n : Node)
    : (n.seen V).isConstant = n.isConstant := by
  simp [isConstant]

/-- It is seen with one more dependency. -/
theorem including_seen (n : Node) (s : Symbol)
    : (n.seen V).including s = (n.including s).seen V := by
  unfold including
  rw [dependencies_seen]
  obtain ⟨shape, recorded, source, identity⟩ := n
  split <;> rfl

/-- It is seen at a place as that is seen. -/
theorem locatedAt_seen (n : Node) (source : Option Location)
    : (n.seen V).locatedAt (V.source source) = (n.locatedAt source).seen V := by
  obtain ⟨shape, recorded, place, identity⟩ := n
  cases source <;> rfl

/-- It is seen in the place of another one. Witness: induction on what the other one recorded. -/
theorem replacedBy_seen (n replacement : Node)
    : (n.seen V).replacedBy (replacement.seen V) = (n.replacedBy replacement).seen V := by
  unfold replacedBy
  rw [recorded_seen]
  induction n.recorded.toList generalizing replacement with
  | nil => rfl
  | cons s rest ih => rw [List.foldl_cons, List.foldl_cons, including_seen, ih]

/-- It is seen reshaped. -/
theorem reshaped_seen (n : Node) (shape : Shape)
    : (n.seen V).reshaped (shape.seen V) = (n.reshaped shape).seen V := by
  cases n
  rfl

end Node

-----------------------------------------------------------------------------------------
-- Putting values in for names
-----------------------------------------------------------------------------------------

open Bindings (Shows)

/-- The replacement of what is seen of a node is seen of its replacement, if so it is for its
shape.
-/
theorem Node.specialized?_seen_of {shape : Shape} {b β : Bindings} (shows : Shows V shape.reads b β)
    (changed : (shape.seen V).specialized? β = (shape.specialized? b).map (Shape.seen V))
    (recorded : SymbolSet) (source : Option Location) (identity : Option Identity)
    : ((Node.mk shape recorded source identity).seen V).specialized? β
      = ((Node.mk shape recorded source identity).specialized? b).map (Node.seen V) := by
  have reshaped
      : ((shape.seen V).specialized? β).map
          (Node.mk (shape.seen V) recorded (V.source source) identity).reshaped
        = ((shape.specialized? b).map (Node.mk shape recorded source identity).reshaped).map
          (Node.seen V) := by
    rw [changed]
    cases shape.specialized? b <;> rfl
  cases shape with
  | lookup s =>
      have found : β.lexical? s = (b.lexical? s).map (Value.seen V) := by
        by_cases bare : s.isQualified = true
        · simp [Bindings.lexical?, bare]
        · exact shows s (by simp [Shape.reads, bare])
      rw [Node.seen, Shape.seen, Node.specialized?, Node.specialized?, found]
      cases b.lexical? s with
      | none => rfl
      | some v =>
          have whole := Node.replacedBy_seen (Node.mk (.lookup s) recorded source identity)
            ((Node.constant v).locatedAt source) (V := V)
          rw [← Node.locatedAt_seen] at whole
          exact congrArg some whole
  | _ => exact reshaped

mutual

/-- What is seen of values is put into what is seen of a node. Witness: induction on the node;
below a binder the names that it takes have no values.
-/
theorem Node.specialized?_seen
    : ∀ (n : Node) {b β : Bindings}, Shows V n.reads b β
        → (n.seen V).specialized? β = (n.specialized? b).map (Node.seen V)
  | ⟨shape, recorded, source, identity⟩, _, _, shows =>
      Node.specialized?_seen_of shows (Shape.specialized?_seen shape shows) recorded source identity
termination_by structural n => n

/-- A specialized shape is seen specialized by what the bindings show, part by part. -/
theorem Shape.specialized?_seen
    : ∀ (s : Shape) {b β : Bindings}, Shows V s.reads b β
        → (s.seen V).specialized? β = (s.specialized? b).map (Shape.seen V)
  | .constant _, _, _, _ | .lookup _, _, _, _ | .quote _ _, _, _, _ | .invoke _ _ _, _, _, _
  | .invokeStatic _ _ _, _, _, _ | .cast _ _, _, _, _ | .instanceOf _ _, _, _, _ => rfl
  | .apply f args, b, _, shows => by
      rw [Shape.seen, Shape.specialized?, Shape.specialized?,
        Node.specialized?_seen f (shows.mono fun s read => by simp [Shape.reads, read]),
        specializedAll?_seen args (shows.mono fun s read => by simp [Shape.reads, read])]
      cases f.specialized? b <;> cases specializedAll? args b <;> rfl
  | .define _ expr, b, _, shows => by
      rw [Shape.seen, Shape.specialized?, Shape.specialized?, Node.specialized?_seen expr shows]
      cases expr.specialized? b <;> rfl
  | .sequence body, b, _, shows => by
      rw [Shape.seen, Shape.specialized?, Shape.specialized?, specializedAll?_seen body shows]
      cases specializedAll? body b <;> rfl
  | .conditional test yes no, b, _, shows => by
      rw [Shape.seen, Shape.specialized?, Shape.specialized?,
        Node.specialized?_seen test (shows.mono fun s read => by simp [Shape.reads, read]),
        Node.specialized?_seen yes (shows.mono fun s read => by simp [Shape.reads, read]),
        Node.specialized?_seen no (shows.mono fun s read => by simp [Shape.reads, read])]
      cases test.specialized? b <;> cases yes.specialized? b <;> cases no.specialized? b <;> rfl
  | .binding pairs body, b, _, shows => by
      have inside : Shows V (fun s => !(pairs.map (·.1)).contains s && body.reads s) b _ :=
        shows.mono fun s read => by rw [Shape.reads, read, Bool.or_true]
      rw [Shape.seen, Shape.specialized?, Shape.specialized?, fst_seenPairs,
        specializedPairs?_seen pairs (shows.mono fun s read => by simp [Shape.reads, read]),
        Node.specialized?_seen body inside.eraseAll]
      cases specializedPairs? pairs b <;>
        cases body.specialized? (b.eraseAll (pairs.map (·.1))) <;> rfl
  | .lambda params rest body, b, _, shows => by
      rw [Shape.seen, Shape.specialized?, Shape.specialized?,
        Node.specialized?_seen body (Shows.eraseAll shows)]
      cases body.specialized? (b.eraseAll (params ++ rest.toList)) <;> rfl
  | .expander continuation params body, b, _, shows => by
      rw [Shape.seen, Shape.specialized?, Shape.specialized?,
        Node.specialized?_seen body (Shows.eraseAll shows)]
      cases body.specialized? (b.eraseAll (params ++ [continuation])) <;> rfl
  | .vector items, b, _, shows => by
      rw [Shape.seen, Shape.specialized?, Shape.specialized?, specializedAll?_seen items shows]
      cases specializedAll? items b <;> rfl
  | .list items, b, _, shows => by
      rw [Shape.seen, Shape.specialized?, Shape.specialized?, specializedAll?_seen items shows]
      cases specializedAll? items b <;> rfl
  | .hashMap items, b, _, shows => by
      rw [Shape.seen, Shape.specialized?, Shape.specialized?, specializedAll?_seen items shows]
      cases specializedAll? items b <;> rfl
  | .set items, b, _, shows => by
      rw [Shape.seen, Shape.specialized?, Shape.specialized?, specializedAll?_seen items shows]
      cases specializedAll? items b <;> rfl
termination_by structural s => s

/-- So are several nodes. -/
theorem specializedAll?_seen
    : ∀ (ns : List Node) {b β : Bindings}, Shows V (anyReads ns) b β
        → specializedAll? (seenNodes V ns) β = (specializedAll? ns b).map (seenNodes V)
  | [], _, _, _ => rfl
  | n :: rest, b, _, shows => by
      rw [seenNodes, specializedAll?, specializedAll?,
        Node.specialized?_seen n (shows.mono fun s read => by simp [anyReads, read]),
        specializedAll?_seen rest (shows.mono fun s read => by simp [anyReads, read])]
      cases n.specialized? b <;> cases specializedAll? rest b <;> rfl
termination_by structural ns => ns

/-- So are pairs. -/
theorem specializedPairs?_seen
    : ∀ (ps : List (Symbol × Node)) {b β : Bindings}, Shows V (pairsRead ps) b β
        → specializedPairs? (seenPairs V ps) β = (specializedPairs? ps b).map (seenPairs V)
  | [], _, _, _ => rfl
  | (_, n) :: rest, b, _, shows => by
      rw [seenPairs, specializedPairs?, specializedPairs?,
        Node.specialized?_seen n (shows.mono fun s read => by simp [pairsRead, read]),
        specializedPairs?_seen rest (shows.mono fun s read => by simp [pairsRead, read])]
      cases n.specialized? b <;> cases specializedPairs? rest b <;> rfl
termination_by structural ps => ps

end

/-- A specialized node is seen specialized by the bindings that it reads. -/
theorem Node.specialized_seen (n : Node) (b : Bindings)
    : (n.seen V).specialized (Bindings.seen V n.reads b) = (n.specialized b).seen V := by
  unfold Node.specialized
  rw [specialized?_seen n (Shows.of_seen V n.reads b), Option.getD_map]

section Same

variable {n n' : Node} (same : n.seen V = n'.seen V)
include same

/-- Nodes that are seen alike read the same symbols. -/
theorem Node.reads_same
    : n.reads = n'.reads := by
  rw [← n.reads_seen (V := V), same, n'.reads_seen]

variable {b b' : Bindings} (bindings : Bindings.seen V n.reads b = Bindings.seen V n.reads b')
include bindings

/-- Nodes that look alike still do after values that look alike are put in for the names they
read.
-/
theorem Node.specialized_same
    : (n.specialized b).seen V = (n'.specialized b').seen V := by
  rw [← specialized_seen, ← specialized_seen, bindings, same, reads_same same]

omit same in
/-- Bindings that look alike to a node look alike to it after they are put in. -/
theorem Node.bindings_specialized
    : Bindings.seen V (n.specialized b).reads b = Bindings.seen V (n.specialized b).reads b' :=
  Bindings.same_of_fewer bindings fun _ => reads_of_specialized

/-- What is seen of bindings that were put in for the names that a node reads. -/
theorem Node.captured_same
    : Bindings.seen V (n.specialized b).reads b = Bindings.seen V (n'.specialized b').reads b' := by
  rw [bindings_specialized bindings, reads_same (specialized_same same bindings)]

end Same

end IncrementalLisp
