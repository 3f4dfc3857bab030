import IncrementalLisp.Proofs.Node.Rewritten

/-! One pass of simplification is enough. What can be simplified in a node may only show once its
parts are simplified: the branch that a conditional becomes can be a constant in a sequence, and the
node that is left of a sequence can be the constant test of a conditional. The pass goes from the
parts to the whole, so that what it leaves has nothing to simplify, and a second pass finds a normal
form.
-/

namespace IncrementalLisp

-----------------------------------------------------------------------------------------
-- Normal forms
-----------------------------------------------------------------------------------------

/-- What can be simplified about a shape itself, whatever can be about its parts. -/
def Shape.Reducible : Shape → Prop
  | .quote _ _ => True
  | .sequence body => body.length < 2 ∨ ∃ n ∈ body.dropLast, n.isConstant
  | .conditional test _ _ => test.isConstant
  | .binding pairs _ => pairs = []
  | .vector items | .list items | .set items => ∀ n ∈ items, n.isConstant
  | .hashMap items => items.length % 2 = 0 ∧ ∀ n ∈ items, n.isConstant
  | _ => False

/-- (n.Reveals m) says that the second node stands somewhere in the first, itself included, with no
host operation around it.
-/
inductive Node.Reveals : Node → Node → Prop where
  | whole (n : Node)
    : n.Reveals n
  | part {n inner m : Node} (open? : n.shape.asksHost = false) (member : inner ∈ n.shape.parts)
      (shown : inner.Reveals m)
    : n.Reveals m

/-- (n.Throughout P) says that the shapes of all nodes that show in this one have a property. -/
def Node.Throughout (P : Shape → Prop) (n : Node)
    : Prop :=
  ∀ m, n.Reveals m → P m.shape

namespace Node

variable {n : Node} {P : Shape → Prop}

/-- What shows in a node is the node itself and what shows in its parts. -/
theorem throughout_iff
    : n.Throughout P
      ↔ P n.shape ∧ (n.shape.asksHost = false → ∀ inner ∈ n.shape.parts, inner.Throughout P) := by
  constructor
  · intro everywhere
    exact ⟨everywhere n (.whole n), fun open? inner member m shown =>
      everywhere m (.part open? member shown)⟩
  · rintro ⟨whole, parts⟩ m (_ | ⟨open?, member, shown⟩)
    · exact whole
    · exact parts open? _ member m shown

end Node

-----------------------------------------------------------------------------------------
-- Simplified parts
-----------------------------------------------------------------------------------------

variable {a : Arrangement}

/-- Nodes have constants together if each of them is a constant. Witness: induction on the nodes. -/
theorem isConstant_of_constants? {ns : List Node}
    : (constants? ns).isSome ↔ ∀ n ∈ ns, n.isConstant := by
  unfold constants?
  induction ns with
  | nil => simp
  | cons n rest ih =>
      rw [List.forall_mem_cons, ← ih, List.mapM_cons, Node.isConstant]
      cases n.constant? <;> cases rest.mapM Node.constant? <;> simp

/-- Items fold into a collection if each of them is a constant. -/
theorem isSome_folded {items : List Node} {build : List Value → Value}
    : ((constants? items).bind (some ∘ build)).isSome ↔ ∀ n ∈ items, n.isConstant := by
  rw [← isConstant_of_constants?]
  cases constants? items <;> simp

/-- Items fold into a map if each of them is a constant and there are as many keys as values. -/
theorem isSome_foldedMap {items : List Node}
    : ((constants? items).bind (mapOfItems? a)).isSome
      ↔ items.length % 2 = 0 ∧ ∀ n ∈ items, n.isConstant := by
  rw [← isConstant_of_constants?]
  cases known : constants? items with
  | none => simp
  | some vs =>
      have length := (constants?_eq_some known).length_eq
      simp [mapOfItems?, length]

/-- Only the last of the nodes that matter in a sequence can be constant. -/
theorem not_isConstant_of_effective {body : List Node} {n : Node}
    (early : n ∈ (effective body).dropLast)
    : ¬n.isConstant := by
  induction body with
  | nil => simp [effective] at early
  | cons first rest ih =>
      by_cases more : rest = []
      · subst more
        simp [effective] at early
      · rw [effective_cons more] at early
        split at early
        · exact ih early
        · rename_i varies
          rw [List.dropLast_cons_of_ne_nil (effective_ne_nil more)] at early
          rcases List.mem_cons.mp early with rfl | later
          · exact varies
          · exact ih later

/-- The effective nodes of a body are among its nodes, by its recursion. -/
theorem mem_of_effective {body : List Node} {n : Node} (member : n ∈ effective body)
    : n ∈ body := by
  induction body using effective.induct <;> simp_all [effective]
  all_goals grind

/-- A sequence of which several nodes matter cannot be simplified further. -/
theorem not_reducible_effective {body : List Node} (several : 2 ≤ (effective body).length)
    : ¬(Shape.sequence (effective body)).Reducible := by
  rintro (short | ⟨n, early, constant⟩)
  · omega
  · exact not_isConstant_of_effective early constant

/-- A collection of which something is left, and what cannot be simplified about it. -/
theorem not_reducible_collection {items : List Node} {shape : List Node → Shape}
    {build : List Value → Option Value}
    (reducible : (shape items).Reducible → ((constants? items).bind build).isSome)
    : ¬(Shape.collectionOf items shape build).Reducible := by
  unfold Shape.collectionOf
  cases built : (constants? items).bind build with
  | some v => exact id
  | none =>
      intro some?
      simp [built] at reducible
      exact reducible some?

/-- The parts of a collection are among its items, folded or not. -/
theorem parts_collectionOf {items : List Node} {shape : List Node → Shape}
    {build : List Value → Option Value} (plain : (shape items).parts = items) {part : Node}
    (member : part ∈ (Shape.collectionOf items shape build).parts)
    : part ∈ items := by
  unfold Shape.collectionOf at member
  split at member
  · simp [Shape.parts] at member
  · rwa [plain] at member

/-- What becomes of a shape whose parts have been simplified. -/
inductive Shape.Reduced (a : Arrangement) (s : Shape) : Prop where
  /-- A host operation is left alone. -/
  | host (asks : s.asksHost = true)
  /-- One of the parts is all that is left. -/
  | part {part : Node} (member : part ∈ s.parts) (left : s.optimized a = (part.optimized a).shape)
  /-- What is left of the parts cannot be simplified as a whole. -/
  | whole (irreducible : ¬(s.optimized a).Reducible)
      (parts : ∀ part ∈ (s.optimized a).parts, part ∈ s.parts.map (Node.optimized a))

/-- A simplified collection is reduced if it folds whenever it is reducible. -/
theorem Shape.reduced_collection {items : List Node} {shape : List Node → Shape}
    {build : List Value → Option Value}
    (simpler : (shape items).optimized a = .collectionOf (items.map (Node.optimized a)) shape build)
    (plain : ∀ ns, (shape ns).parts = ns)
    (reducible : ∀ ns, (shape ns).Reducible → ((constants? ns).bind build).isSome)
    : (shape items).Reduced a := by
  refine .whole ?_ ?_
  · rw [simpler]
    exact not_reducible_collection (reducible _)
  · intro part member
    rw [simpler] at member
    rw [plain]
    exact parts_collectionOf (plain _) member

/-- A simplified sequence is reduced: no constant stands before its end, and it has several nodes.
-/
theorem Shape.reduced_sequence (body : List Node)
    : (Shape.sequence body).Reduced a := by
  have members {m : Node} (member : m ∈ effective (body.map (Node.optimized a))) :=
    mem_of_effective member
  have several (many : 2 ≤ (effective (body.map (Node.optimized a))).length) :=
    not_reducible_effective many
  have simpler : (Shape.sequence body).optimized a = .sequenceOf (body.map (Node.optimized a)) := rfl
  unfold Shape.sequenceOf at simpler
  generalize effective (body.map (Node.optimized a)) = kept at members several simpler
  rcases kept with _ | ⟨only, _ | ⟨next, rest⟩⟩
  · exact .whole (by simp [simpler, Shape.Reducible]) (by simp [simpler, Shape.parts])
  · obtain ⟨n, member, rfl⟩ := List.mem_map.mp (members List.mem_cons_self)
    exact .part member simpler
  · refine .whole ?_ ?_
    · rw [simpler]
      exact several (by simp)
    · intro part member
      rw [simpler] at member
      exact members member

/-- A simplified conditional is reduced, by whether its test has become a constant. -/
theorem Shape.reduced_conditional (test yes no : Node)
    : (Shape.conditional test yes no).Reduced a := by
  cases constant : (test.optimized a).constant? with
  | some v =>
      have simpler : (Shape.conditional test yes no).optimized a
          = (if v.isTruthy then yes.optimized a else no.optimized a).shape := by
        simp only [Shape.optimized, constant]
      split at simpler
      · exact .part (show yes ∈ _ by simp [Shape.parts]) simpler
      · exact .part (show no ∈ _ by simp [Shape.parts]) simpler
  | none =>
      have simpler : (Shape.conditional test yes no).optimized a
          = .conditional (test.optimized a) (yes.optimized a) (no.optimized a) := by
        simp only [Shape.optimized, constant]
      exact .whole (by simp [simpler, Shape.Reducible, Node.isConstant, constant])
        (by simp [simpler, Shape.parts])

/-- Every simplified shape is reduced, by cases on the shape. -/
theorem Shape.reduced (s : Shape)
    : s.Reduced a := by
  cases s with
  | invoke | invokeStatic | cast | instanceOf => exact .host rfl
  | constant | lookup | quote => exact .whole id nofun
  | apply | define | lambda | expander => exact .whole id (by simp [Shape.optimized, Shape.parts])
  | sequence body => exact Shape.reduced_sequence body
  | conditional test yes no => exact Shape.reduced_conditional test yes no
  | binding pairs body =>
      cases pairs with
      | nil => exact .part (show body ∈ _ from List.mem_cons_self) rfl
      | cons pair rest =>
          exact .whole (by simp [Shape.optimized, Shape.Reducible])
            (by simp [Shape.optimized, Shape.parts, Function.comp_def])
  | vector | list | set =>
      exact Shape.reduced_collection rfl (fun _ => rfl) fun _ => isSome_folded.mpr
  | hashMap => exact Shape.reduced_collection rfl (fun _ => rfl) fun _ => isSome_foldedMap.mpr

/-- A shape that asks the host is not simplified. -/
theorem Shape.optimized_of_asksHost {s : Shape} (asks : s.asksHost = true)
    : s.optimized a = s := by
  cases s <;> simp_all [Shape.asksHost, Shape.optimized]

/-- It is no redex either. -/
theorem Shape.not_reducible_of_asksHost {s : Shape} (asks : s.asksHost = true)
    : ¬s.Reducible := by
  cases s <;> simp_all [Shape.asksHost, Shape.Reducible]

-----------------------------------------------------------------------------------------
-- The second pass
-----------------------------------------------------------------------------------------

/-- (s.Stable) says that neither a shape nor what is simplified of its parts changes, however tables
are arranged.
-/
structure Shape.Stable (s : Shape) : Prop where
  irreducible : ¬s.Reducible
  parts : s.asksHost = false → ∀ part ∈ s.parts, ∀ a, part.optimized a = part

/-- A sequence that is no redex has only effective nodes, by induction on its nodes. -/
theorem effective_of_not_reducible {body : List Node}
    (irreducible : ¬(Shape.sequence body).Reducible)
    : effective body = body := by
  simp only [Shape.Reducible, not_or, not_exists, not_and] at irreducible
  obtain ⟨-, varies⟩ := irreducible
  induction body with
  | nil => rfl
  | cons n rest ih =>
      by_cases more : rest = []
      · subst more
        rfl
      · rw [List.dropLast_cons_of_ne_nil more] at varies
        rw [effective_cons more, if_neg (varies n List.mem_cons_self),
          ih fun m member => varies m (List.mem_cons_of_mem n member)]

/-- Nodes that simplification leaves alone stay the same together. -/
theorem map_optimized_of_stable {ns : List Node} (stable : ∀ n ∈ ns, n.optimized a = n)
    : ns.map (Node.optimized a) = ns := by
  rw [List.map_congr_left stable, List.map_id']

/-- A new node keeps its shape when it is given the same shape. -/
theorem Node.reshaped_of_new {n : Node} {s : Shape} (new : n.identity = none) (same : n.shape = s)
    : n.reshaped s = n := by
  obtain ⟨shape, recorded, source, identity⟩ := n
  obtain rfl : identity = none := new
  obtain rfl : shape = s := same
  rfl

/-- A new node that is rebuilt from what stays as it is stays as it is. -/
theorem Node.getD_reshaped {α : Type} {n : Node} {shape : α → Shape} {part : α} {part? : Option α}
    (new : n.identity = none) (same : n.shape = shape part) (stable : part?.getD part = part)
    : (part?.map fun changed => n.reshaped (shape changed)).getD n = n := by
  cases part? with
  | none => rfl
  | some changed =>
      obtain rfl : changed = part := stable
      exact Node.reshaped_of_new new same

/-- A collection of simplified nodes that stays a collection stays as it is. -/
theorem Node.collection?_of_stable {n : Node} {items : List Node} {shape : List Node → Shape}
    {build : List Value → Option Value} (new : n.identity = none) (same : n.shape = shape items)
    (stable : ∀ item ∈ items, item.optimized a = item)
    (left : ¬((constants? items).bind build).isSome)
    : (n.collection? items (optimizedAll? a items) shape build).getD n = n := by
  have all : (optimizedAll? a items).getD items = items := by
    rw [optimizedAll?_getD, map_optimized_of_stable stable]
  rw [Option.not_isSome_iff_eq_none] at left
  rw [Node.collection?, all, left]
  exact Node.getD_reshaped new same all

/-- A new node that cannot be simplified, with parts that stay as they are, stays as it is. -/
theorem Node.optimized_of_stable {n : Node} (new : n.identity = none) (stable : n.shape.Stable)
    : n.optimized a = n := by
  have irreducible := stable.irreducible
  have parts (open? : n.shape.asksHost = false) (part : Node) (member : part ∈ n.shape.parts)
      : part.optimized a = part :=
    stable.parts open? part member a
  rw [Node.optimized_eq]
  cases same : n.shape with
  | constant | lookup | invoke | invokeStatic | cast | instanceOf => rfl
  | quote => simp [same, Shape.Reducible] at irreducible
  | define name expr =>
      exact Node.getD_reshaped new same (parts (by simp [same, Shape.asksHost]) expr
        (by simp [same, Shape.parts]))
  | lambda params rest body | expander continuation params body =>
      exact Node.getD_reshaped new same (parts (by simp [same, Shape.asksHost]) body
        (by simp [same, Shape.parts]))
  | apply f args =>
      simp only [same, Shape.asksHost, Shape.parts, List.forall_mem_cons, forall_const] at parts
      have callee : (f.optimized? a).getD f = f := parts.1
      have all : (optimizedAll? a args).getD args = args := by
        rw [optimizedAll?_getD, map_optimized_of_stable parts.2]
      rw [Shape.optimizedIn?]
      split
      · rfl
      · simp [callee, all, Node.reshaped_of_new new same]
  | sequence body =>
      simp only [same, Shape.asksHost, Shape.parts, forall_const] at parts
      rw [same] at irreducible
      have all : effective ((optimizedAll? a body).getD body) = body := by
        rw [optimizedAll?_getD, map_optimized_of_stable parts,
          effective_of_not_reducible irreducible]
      rw [Shape.optimizedIn?, Option.getD_some, Node.sequenceOf, all]
      rcases body with _ | ⟨only, _ | ⟨next, rest⟩⟩
      · simp [Shape.Reducible] at irreducible
      · simp [Shape.Reducible] at irreducible
      · exact Node.reshaped_of_new new same
  | conditional test yes no =>
      simp only [same, Shape.asksHost, Shape.parts, List.forall_mem_cons, forall_const] at parts
      obtain ⟨first, second, third, -⟩ := parts
      simp only [same, Shape.Reducible, Node.isConstant,
        Option.not_isSome_iff_eq_none] at irreducible
      have rebuilt : Shape.optimizedIn? a (.conditional test yes no) n
          = some (n.conditionalOf (test.optimized a) (yes.optimized a) (no.optimized a)) := rfl
      rw [rebuilt, first, second, third, Option.getD_some, Node.conditionalOf, irreducible]
      exact Node.reshaped_of_new new same
  | binding pairs body =>
      simp only [same, Shape.asksHost, Shape.parts, List.forall_mem_cons, List.forall_mem_map,
        forall_const] at parts
      rw [same, Shape.Reducible] at irreducible
      have inner : (body.optimized? a).getD body = body := parts.1
      have all : (optimizedPairs? a pairs).getD pairs = pairs := by
        rw [optimizedPairs?_getD, List.map_congr_left (g := id), List.map_id]
        intro pair member
        exact Prod.ext rfl (parts.2 pair member)
      rw [Shape.optimizedIn?]
      simp [irreducible, inner, all, Node.reshaped_of_new new same]
  | vector items | list items | set items =>
      simp only [same, Shape.asksHost, Shape.parts, forall_const] at parts
      rw [same] at irreducible
      exact Node.collection?_of_stable new same parts fun folds =>
        irreducible (isSome_folded.mp folds)
  | hashMap items =>
      simp only [same, Shape.asksHost, Shape.parts, forall_const] at parts
      rw [same] at irreducible
      exact Node.collection?_of_stable new same parts fun folds =>
        irreducible (isSome_foldedMap.mp folds)

/-- A node in the place of another does not change when it is simplified, if it did not before. -/
theorem Node.optimized_including {n : Node} (stable : n.shape.Stable) (same : n.optimized a = n)
    (s : Symbol)
    : (n.including s).optimized a = n.including s := by
  unfold Node.including
  split
  · exact same
  · exact Node.optimized_of_stable rfl stable

/-- A node in the place of another one is left alone if it is left alone itself. Witness: induction
on what the other one recorded.
-/
theorem Node.optimized_replacedBy {n r : Node} (stable : r.shape.Stable) (same : r.optimized a = r)
    : (n.replacedBy r).optimized a = n.replacedBy r := by
  unfold Node.replacedBy
  induction n.recorded.toList generalizing r with
  | nil => exact same
  | cons s rest ih =>
      exact ih (by rwa [Node.shape_including]) (Node.optimized_including stable same s)

/-- It has no identity if it had none. Witness: the same induction. -/
theorem Node.identity_replacedBy {n r : Node} (new : r.identity = none)
    : (n.replacedBy r).identity = none := by
  unfold Node.replacedBy
  induction n.recorded.toList generalizing r with
  | nil => exact new
  | cons s rest ih =>
      refine ih ?_
      unfold Node.including
      split
      · exact new
      · rfl

/-- A folded node has no identity. -/
theorem Node.identity_foldedTo (n : Node) (v : Value)
    : (n.foldedTo v).identity = none := by
  refine Node.identity_replacedBy ?_
  cases n.source <;> rfl

/-- A node that is reshaped if a part changes has no identity if it changed. -/
theorem Node.reshaped_if_changed {α : Type} {n : Node} (shape : α → Shape) (part? : Option α)
    : part?.map (fun changed => n.reshaped (shape changed)) = none
      ∨ ((part?.map fun changed => n.reshaped (shape changed)).getD n).identity = none := by
  cases part? with
  | none => exact Or.inl rfl
  | some _ => exact Or.inr rfl

/-- Neither has a collection that is rebuilt if its items change. -/
theorem Node.collection?_if_changed {n : Node} (items : List Node) (items? : Option (List Node))
    (shape : List Node → Shape) (build : List Value → Option Value)
    : n.collection? items items? shape build = none
      ∨ ((n.collection? items items? shape build).getD n).identity = none := by
  unfold Node.collection?
  split
  · exact Or.inr (Node.identity_foldedTo _ _)
  · exact Node.reshaped_if_changed shape items?

/-- A node is simplified as its shape says. -/
theorem Node.optimized?_eq (n : Node)
    : n.optimized? a = n.shape.optimizedIn? a n := by
  obtain ⟨shape, recorded, source, identity⟩ := n
  rfl

/-- A list does not change if neither its first item nor the others do. -/
theorem consChanged_eq_none {α : Type} {item : α} {rest : List α} {item? : Option α}
    {rest? : Option (List α)}
    : consChanged item rest item? rest? = none ↔ item? = none ∧ rest? = none := by
  cases item? <;> cases rest? <;> simp [consChanged]

/-- A collection stays as it is if it is not folded and none of its items changes. -/
theorem Node.collection?_eq_none {n : Node} {items : List Node} {items? : Option (List Node)}
    {shape : List Node → Shape} {build : List Value → Option Value}
    : n.collection? items items? shape build = none
      ↔ items? = none ∧ ¬((constants? items).bind build).isSome := by
  unfold Node.collection?
  cases items? with
  | none =>
      rw [Option.getD_none]
      cases (constants? items).bind build <;> simp
  | some others =>
      rw [Option.getD_some]
      cases (constants? others).bind build <;> simp

mutual

/-- Whether a node is left as it is does not depend on how tables are arranged. Witness: induction
on the node. A table that is arranged is a change.
-/
theorem Node.optimized?_of_unchanged
    : ∀ {n : Node}, n.optimized? a = none → ∀ a', n.optimized? a' = none
  | ⟨_, _, _, _⟩, unchanged, a' => Shape.optimizedIn?_of_unchanged unchanged a'
termination_by structural n => n

/-- A shape that one arrangement leaves alone is left alone by any other one, part by part. -/
theorem Shape.optimizedIn?_of_unchanged
    : ∀ {s : Shape} {n : Node}, s.optimizedIn? a n = none → ∀ a', s.optimizedIn? a' n = none
  | .constant _, _, _, _ | .lookup _, _, _, _ | .invoke _ _ _, _, _, _ | .invokeStatic _ _ _, _, _, _
  | .cast _ _, _, _, _ | .instanceOf _ _, _, _, _ => rfl
  | .apply f args, _, unchanged, a' => by
      rw [Shape.optimizedIn?] at unchanged
      split at unchanged
      · rename_i callee rest
        rw [Shape.optimizedIn?, Node.optimized?_of_unchanged callee a',
          optimizedAll?_of_unchanged rest a']
      · cases unchanged
  | .define _ expr, _, unchanged, a' | .lambda _ _ expr, _, unchanged, a'
  | .expander _ _ expr, _, unchanged, a' => by
      rw [Shape.optimizedIn?, Option.map_eq_none_iff] at unchanged ⊢
      exact Node.optimized?_of_unchanged unchanged a'
  | .binding pairs body, _, unchanged, _ => by
      dsimp only [Shape.optimizedIn?] at unchanged
      split at unchanged <;> cases unchanged
  | .vector _, _, unchanged, a' | .list _, _, unchanged, a' | .set _, _, unchanged, a' => by
      rw [Shape.optimizedIn?, Node.collection?_eq_none, isSome_folded] at unchanged ⊢
      exact ⟨optimizedAll?_of_unchanged unchanged.1 a', unchanged.2⟩
  | .hashMap _, _, unchanged, a' => by
      rw [Shape.optimizedIn?, Node.collection?_eq_none, isSome_foldedMap] at unchanged ⊢
      exact ⟨optimizedAll?_of_unchanged unchanged.1 a', unchanged.2⟩
termination_by structural s => s

/-- So are nodes, by the first and the others. -/
theorem optimizedAll?_of_unchanged
    : ∀ {ns : List Node}, optimizedAll? a ns = none → ∀ a', optimizedAll? a' ns = none
  | [], _, _ => rfl
  | _ :: _, unchanged, a' => by
      rw [optimizedAll?, consChanged_eq_none] at unchanged ⊢
      exact ⟨Node.optimized?_of_unchanged unchanged.1 a', optimizedAll?_of_unchanged unchanged.2 a'⟩
termination_by structural ns => ns

end

/-- A simplified node is not changed, or stands for one of its simplified parts, or is new. -/
theorem Node.optimized_new (a : Arrangement) (n : Node)
    : n.optimized? a = none
      ∨ (∃ part ∈ n.shape.parts, n.optimized a = n.replacedBy (part.optimized a))
      ∨ (n.optimized a).identity = none := by
  rw [Node.optimized_eq, Node.optimized?_eq]
  cases n.shape with
  | constant | lookup | invoke | invokeStatic | cast | instanceOf => exact Or.inl rfl
  | quote => exact Or.inr (Or.inr (Node.identity_foldedTo _ _))
  | define name expr =>
      exact (Node.reshaped_if_changed _ (expr.optimized? a)).imp_right Or.inr
  | lambda params rest body | expander continuation params body =>
      exact (Node.reshaped_if_changed _ (body.optimized? a)).imp_right Or.inr
  | vector | list | hashMap | set => exact (Node.collection?_if_changed _ _ _ _).imp_right Or.inr
  | apply f args =>
      rw [Shape.optimizedIn?]
      split
      · exact Or.inl rfl
      · exact Or.inr (Or.inr rfl)
  | sequence body =>
      have members {m : Node} (member : m ∈ effective (body.map (Node.optimized a))) :=
        mem_of_effective member
      rw [Shape.optimizedIn?, optimizedAll?_getD, Option.getD_some, Node.sequenceOf]
      generalize effective (body.map (Node.optimized a)) = kept at members ⊢
      rcases kept with _ | ⟨only, _ | ⟨next, rest⟩⟩
      · exact Or.inr (Or.inr (Node.identity_replacedBy rfl))
      · obtain ⟨part, member, rfl⟩ := List.mem_map.mp (members List.mem_cons_self)
        exact Or.inr (Or.inl ⟨part, member, rfl⟩)
      · exact Or.inr (Or.inr rfl)
  | conditional test yes no =>
      rw [Shape.optimizedIn?, Option.getD_some, Node.conditionalOf]
      split
      · split
        · exact Or.inr (Or.inl ⟨yes, by simp [Shape.parts], rfl⟩)
        · exact Or.inr (Or.inl ⟨no, by simp [Shape.parts], rfl⟩)
      · exact Or.inr (Or.inr rfl)
  | binding pairs body =>
      dsimp only [Shape.optimizedIn?]
      split
      · exact Or.inr (Or.inl ⟨body, List.mem_cons_self, rfl⟩)
      · exact Or.inr (Or.inr rfl)

/-- A simplified node cannot be simplified as a whole, and a second pass changes neither the node
nor what is simplified of its parts. Witness: induction on the node. What is new of a simplified
node is rebuilt as it is by a second pass, and the rest has been there before.
-/
theorem Node.stable_optimized (n : Node)
    : (n.optimized a).shape.Stable ∧ ∀ a', (n.optimized a).optimized a' = n.optimized a := by
  induction n using Node.induction_parts with
  | step n ih =>
      have stable : (n.optimized a).shape.Stable := by
        have simpler := n.shape_optimized (a := a)
        rcases n.shape.reduced (a := a) with asks | ⟨member, left⟩ | ⟨irreducible, parts⟩
        · rw [simpler, Shape.optimized_of_asksHost asks]
          exact ⟨Shape.not_reducible_of_asksHost asks, by simp [asks]⟩
        · rw [simpler, left]
          exact (ih _ member).1
        · rw [simpler]
          refine ⟨irreducible, fun _ part member => ?_⟩
          obtain ⟨inner, listed, rfl⟩ := List.mem_map.mp (parts part member)
          exact (ih inner listed).2
      refine ⟨stable, fun a' => ?_⟩
      rcases n.optimized_new a with unchanged | ⟨part, member, taken⟩ | new
      · have same (other : Arrangement) : n.optimized other = n := by
          rw [Node.optimized, Node.optimized?_of_unchanged unchanged other, Option.getD_none]
        rw [same, same]
      · rw [taken]
        exact Node.optimized_replacedBy (ih part member).1 ((ih part member).2 a')
      · exact Node.optimized_of_stable new stable

/-- Nothing that shows in a node can be simplified if simplification does not change the node.
Witness: induction on the node; its parts are not changed either.
-/
theorem Node.normal_of_optimized {n : Node} (same : n.optimized a = n)
    : n.Throughout (¬·.Reducible) := by
  induction n using Node.induction_parts with
  | step n ih =>
      have stable := (n.stable_optimized (a := a)).1
      rw [same] at stable
      exact Node.throughout_iff.mpr ⟨stable.irreducible, fun open? part member =>
        ih part member (stable.parts open? part member a)⟩

/-- One pass of simplification reaches a normal form. Nothing that shows in a simplified node,
outside of host operations, can be simplified; and a second pass gives the same node again, with the
same dependencies and places at every depth, however each of the two arranges tables. Witness: the
two inductions above.
-/
theorem Node.optimized_reaches_normal_form (n : Node) (a : Arrangement)
    : (∀ m, (n.optimized a).Reveals m → ¬m.shape.Reducible)
      ∧ ∀ a', (n.optimized a).optimized a' = n.optimized a :=
  ⟨Node.normal_of_optimized (n.stable_optimized.2 a), n.stable_optimized.2⟩

end IncrementalLisp
