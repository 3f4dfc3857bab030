import IncrementalLisp.Proofs.Node.Tree
import IncrementalLisp.Proofs.Value.Reordered

/-! Simplified trees that differ only in the order in which the tables of their constants hand their
items out. What is constant in one is constant in the other, and tables are made from the same items
in both, so that trees of reordered parts are reordered, whatever the arrangements of their tables.
-/

namespace IncrementalLisp

open List (Forall₂)

/-- (v.Rearranges w) says that a proper value differs from another at most in the order of its
tables.
-/
structure Value.Rearranges (v w : Value) : Prop where
  proper : v.Proper
  reorders : v.Reorders w

/-- (n.Reorders m) says that two trees without host operations, quoted forms and expander literals
differ at most in the order of the tables in their constants, which are proper.
-/
inductive Node.Reorders : Node → Node → Prop where
  | constant {v w : Value} (values : v.Rearranges w)
      : Reorders (.constant v) (.constant w)
  | lookup (s : Symbol)
      : Reorders (.lookup s) (.lookup s)
  | apply {f g : Node} {args args' : List Node} (callee : Reorders f g)
      (each : Forall₂ Reorders args args')
      : Reorders (.of (.apply f args)) (.of (.apply g args'))
  | define (s : Symbol) {expr expr' : Node} (inner : Reorders expr expr')
      : Reorders (.of (.define s expr)) (.of (.define s expr'))
  | sequence {body body' : List Node} (each : Forall₂ Reorders body body')
      : Reorders (.of (.sequence body)) (.of (.sequence body'))
  | conditional {test test' yes yes' no no' : Node} (tests : Reorders test test')
      (yeses : Reorders yes yes') (noes : Reorders no no')
      : Reorders (.of (.conditional test yes no)) (.of (.conditional test' yes' no'))
  | binding {pairs pairs' : List (Symbol × Node)} {body body' : Node}
      (names : pairs.map (·.1) = pairs'.map (·.1))
      (each : Forall₂ Reorders (pairs.map (·.2)) (pairs'.map (·.2))) (inner : Reorders body body')
      : Reorders (.of (.binding pairs body)) (.of (.binding pairs' body'))
  | lambda (params : List Symbol) (rest : Option Symbol) {body body' : Node}
      (inner : Reorders body body')
      : Reorders (.of (.lambda params rest body)) (.of (.lambda params rest body'))
  | vector {items items' : List Node} (each : Forall₂ Reorders items items')
      : Reorders (.of (.vector items)) (.of (.vector items'))
  | list {items items' : List Node} (each : Forall₂ Reorders items items')
      : Reorders (.of (.list items)) (.of (.list items'))
  | hashMap {items items' : List Node} (each : Forall₂ Reorders items items')
      : Reorders (.of (.hashMap items)) (.of (.hashMap items'))
  | set {items items' : List Node} (each : Forall₂ Reorders items items')
      : Reorders (.of (.set items)) (.of (.set items'))

-----------------------------------------------------------------------------------------
-- Constants
-----------------------------------------------------------------------------------------

/-- Nil has no tables. -/
theorem Value.Rearranges.nil
    : Value.nil.Rearranges .nil :=
  ⟨trivial, rfl⟩

section Tables

variable {a a' : Arrangement} {vs ws : List Value} (each : Forall₂ Value.Rearranges vs ws)
include each

/-- Rearranged values are proper, and reordered one by one. Witness: induction on the
correspondence.
-/
theorem Value.Rearranges.all
    : Value.AllProper vs ∧ Forall₂ Value.Reorders vs ws := by
  induction each with
  | nil => exact ⟨trivial, .nil⟩
  | cons first _ others => exact ⟨⟨first.proper, others.1⟩, .cons first.reorders others.2⟩

/-- Vectors of rearranged values are rearranged. -/
theorem Value.Rearranges.vector
    : (Value.vector vs).Rearranges (.vector ws) :=
  have ⟨proper, same⟩ := Value.Rearranges.all each
  ⟨proper, ws, rfl, Value.allReorder_iff.mpr same⟩

/-- So are lists of them. -/
theorem Value.Rearranges.listOf
    : (Value.listOf vs).Rearranges (.listOf ws) :=
  have ⟨proper, same⟩ := Value.Rearranges.all each
  ⟨proper, ws, rfl, Value.allReorder_iff.mpr same⟩

/-- So are sets of them, whatever their arrangements. -/
theorem Value.Rearranges.setOf
    : (Value.setOf a vs).Rearranges (.setOf a' ws) :=
  have ⟨proper, same⟩ := Value.Rearranges.all each
  ⟨Value.proper_setOf proper, Value.setOf_reorders proper same⟩

/-- The entries that alternating keys and values make are rearranged if these are. -/
theorem Value.Rearranges.pairs
    : Value.EntriesProper (Value.pairs vs)
        ∧ Forall₂ Value.EntryReorders (Value.pairs vs) (Value.pairs ws) := by
  induction vs using Value.pairs.induct generalizing ws with
  | case1 x y rest ih =>
      obtain ⟨_, _, key, more, rfl⟩ := List.forall₂_cons_left_iff.mp each
      obtain ⟨_, _, value, others, rfl⟩ := List.forall₂_cons_left_iff.mp more
      obtain ⟨proper, same⟩ := ih others
      exact ⟨⟨key.proper, value.proper, proper⟩, .cons ⟨key.reorders, value.reorders⟩ same⟩
  | case2 items short =>
      cases each with
      | nil => exact ⟨trivial, .nil⟩
      | cons first others =>
          cases others with
          | nil => exact ⟨trivial, .nil⟩
          | cons => exact absurd rfl (short _ _ _)

/-- Maps of rearranged keys and values are rearranged, and are there for as many keys as values. -/
theorem Value.Rearranges.mapOfItems?
    : Option.Rel Value.Rearranges (mapOfItems? a vs) (mapOfItems? a' ws) := by
  have ⟨proper, same⟩ := Value.Rearranges.pairs each
  unfold IncrementalLisp.mapOfItems?
  rw [each.length_eq]
  split
  · exact .some ⟨Value.proper_mapOf proper, Value.mapOf_reorders proper same⟩
  · exact .none

end Tables

/-- Reordered values are true together, by cases on the value. -/
theorem Value.Reorders.isTruthy_eq {v w : Value} (same : v.Reorders w)
    : w.isTruthy = v.isTruthy := by
  cases v with
  | list | vector =>
      obtain ⟨_, rfl, _⟩ := same
      rfl
  | map | set =>
      obtain ⟨_, _, rfl, _⟩ := same
      rfl
  | _ =>
      obtain rfl := same
      rfl

namespace Node.Reorders

variable {n m : Node} {ns ms : List Node}

/-- A reordered tree is nothing but its shape. -/
theorem of_shape (same : n.Reorders m)
    : Node.of n.shape = n ∧ Node.of m.shape = m := by
  cases same <;> exact ⟨rfl, rfl⟩

/-- Of two reordered trees both are constants, or neither is. -/
theorem constant? (same : n.Reorders m)
    : Option.Rel Value.Rearranges n.constant? m.constant? := by
  cases same with
  | constant values => exact .some values
  | _ => exact .none

/-- Reordered nodes are constants together. -/
theorem isConstant_eq (same : n.Reorders m)
    : m.isConstant = n.isConstant := by
  have constant := same.constant?
  unfold Node.isConstant
  generalize n.constant? = o, m.constant? = o' at constant ⊢
  cases constant <;> rfl

/-- They have rearranged constants together, one by one. Witness: induction on the correspondence.
-/
theorem constants? (each : Forall₂ Node.Reorders ns ms)
    : Option.Rel (Forall₂ Value.Rearranges) (constants? ns) (constants? ms) := by
  unfold IncrementalLisp.constants?
  induction each with
  | nil => exact .some .nil
  | cons first _ others =>
      rename_i n m rest rest' _
      have constant := first.constant?
      rw [List.mapM_cons, List.mapM_cons]
      generalize n.constant? = o, m.constant? = o', rest.mapM Node.constant? = os,
        rest'.mapM Node.constant? = os' at constant others ⊢
      cases constant with
      | none => exact .none
      | some value =>
          cases others with
          | none => exact .none
          | some values => exact .some (.cons value values)

/-- The effective nodes of reordered nodes are reordered. Witness: the same induction. -/
theorem effective (each : Forall₂ Node.Reorders ns ms)
    : Forall₂ Node.Reorders (effective ns) (effective ms) := by
  induction each with
  | nil => exact .nil
  | cons first others kept =>
      rename_i n m rest rest'
      by_cases more : rest = []
      · subst more
        cases others
        exact .cons first .nil
      · have more' : rest' ≠ [] := fun none => more (by
          subst none
          cases others
          rfl)
        rw [effective_cons more, effective_cons more', first.isConstant_eq]
        split
        · exact kept
        · exact .cons first kept

-----------------------------------------------------------------------------------------
-- Simplified parts
-----------------------------------------------------------------------------------------

/-- So is the sequence of them, by their number. -/
theorem sequenceOf (each : Forall₂ Node.Reorders ns ms)
    : (Node.of (.sequenceOf ns)).Reorders (.of (.sequenceOf ms)) := by
  have kept := effective each
  unfold Shape.sequenceOf
  generalize IncrementalLisp.effective ns = fs, IncrementalLisp.effective ms = gs at kept ⊢
  cases kept with
  | nil => exact .constant .nil
  | cons first others =>
      cases others with
      | nil =>
          dsimp only
          rw [first.of_shape.1, first.of_shape.2]
          exact first
      | cons second rest => exact .sequence (.cons first (.cons second rest))

/-- Of what is built of rearranged values both are constants, or neither is. -/
theorem collectionOf {build build' : List Value → Option Value}
    (builds : ∀ {vs ws : List Value}, Forall₂ Value.Rearranges vs ws
      → Option.Rel Value.Rearranges (build vs) (build' ws))
    {shape : List Node → Shape}
    (shapes : ∀ {ns ms : List Node}, Forall₂ Node.Reorders ns ms
      → (Node.of (shape ns)).Reorders (.of (shape ms)))
    (each : Forall₂ Node.Reorders ns ms)
    : (Node.of (.collectionOf ns shape build)).Reorders (.of (.collectionOf ms shape build')) := by
  have values := constants? each
  unfold Shape.collectionOf
  generalize IncrementalLisp.constants? ns = o, IncrementalLisp.constants? ms = o' at values ⊢
  have built : Option.Rel Value.Rearranges (o.bind build) (o'.bind build') := by
    cases values with
    | none => exact .none
    | some values => exact builds values
  generalize o.bind build = r, o'.bind build' = r' at built ⊢
  cases built with
  | none => exact shapes each
  | some value => exact .constant value

end Node.Reorders

-----------------------------------------------------------------------------------------
-- Rigid trees
-----------------------------------------------------------------------------------------

/-- Whether a value has no items. -/
def Value.isAtomic : Value → Bool
  | .list items _ => items.isEmpty
  | .vector items => items.isEmpty
  | .map _ => false
  | .set _ => false
  | _ => true

/-- A value that has no parts is reordered in no way. -/
theorem Value.Reorders.eq_of_isAtomic {v w : Value} (same : v.Reorders w) (atomic : v.isAtomic)
    : w = v := by
  cases v with
  | list items place | vector items =>
      obtain ⟨ws, rfl, each⟩ := same
      obtain rfl := List.isEmpty_iff.mp atomic
      cases Value.allReorder_iff.mp each
      rfl
  | map entries | set items => cases atomic
  | _ => exact same

mutual

/-- Whether a node is built of references and constants without items by calls, conditionals,
sequences and function literals alone.
-/
def Node.isRigid : Node → Bool
  | ⟨shape, _, _, _⟩ => shape.isRigid
termination_by structural n => n

/-- Whether a shape is, and its parts are built so. -/
def Shape.isRigid : Shape → Bool
  | .constant v => v.isAtomic
  | .lookup _ => true
  | .apply f args => f.isRigid && areRigid args
  | .sequence body => areRigid body
  | .conditional test yes no => test.isRigid && (yes.isRigid && no.isRigid)
  | .lambda _ _ body => body.isRigid
  | _ => false
termination_by structural s => s

/-- Whether several nodes are built so. -/
def areRigid : List Node → Bool
  | [] => true
  | n :: rest => n.isRigid && areRigid rest
termination_by structural ns => ns

end

mutual

/-- A rigid tree is equal to what it reorders. Witness: induction on the tree; its constants have no
items, so that there is nothing to order.
-/
theorem Node.Reorders.eq_of_isRigid
    : ∀ {n m : Node}, n.Reorders m → n.isRigid → m = n
  | _, _, .constant values, rigid => by
      have atomic : Value.isAtomic _ = true := rigid
      rw [values.reorders.eq_of_isAtomic atomic]
  | _, _, .lookup s, _ => rfl
  | _, _, .apply callee each, rigid => by
      obtain ⟨first, others⟩ := Bool.and_eq_true_iff.mp rigid
      rw [callee.eq_of_isRigid first, eq_of_areRigid each others]
  | _, _, .sequence each, rigid => by rw [eq_of_areRigid each rigid]
  | _, _, .conditional tests yeses noes, rigid => by
      obtain ⟨test, branches⟩ := Bool.and_eq_true_iff.mp rigid
      obtain ⟨yes, no⟩ := Bool.and_eq_true_iff.mp branches
      rw [tests.eq_of_isRigid test, yeses.eq_of_isRigid yes, noes.eq_of_isRigid no]
  | _, _, .lambda _ _ inner, rigid => by rw [inner.eq_of_isRigid rigid]

/-- Rigid nodes are reordered in no way, one by one. -/
theorem eq_of_areRigid
    : ∀ {ns ms : List Node}, Forall₂ Node.Reorders ns ms → areRigid ns → ms = ns
  | _, _, .nil, _ => rfl
  | _, _, .cons first others, rigid => by
      obtain ⟨head, tail⟩ := Bool.and_eq_true_iff.mp rigid
      rw [first.eq_of_isRigid head, eq_of_areRigid others tail]

end

end IncrementalLisp
