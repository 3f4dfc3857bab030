import IncrementalLisp.Proofs.Node.Alike
import IncrementalLisp.Proofs.Node.Specialized
import IncrementalLisp.Proofs.Value.References

/-! Substitution and simplification leave nodes that refer only to contexts that the node and the
substituted values referred to.
-/

namespace IncrementalLisp

variable {p : ContextId → Prop}

/-- One more dependency refers to no context. -/
@[simp]
theorem Node.contexts_including (n : Node) (s : Symbol)
    : (n.including s).contexts = n.contexts := by
  unfold Node.including
  split
  · rfl
  · simp only [Node.contexts_eq]

/-- Neither does a place. -/
@[simp]
theorem Node.contexts_locatedAt (n : Node) (place : Option Location)
    : (n.locatedAt place).contexts = n.contexts := by
  cases place <;> simp only [Node.locatedAt, Node.contexts_eq]

/-- A node in the place of another one refers to what it refers to. Witness: induction on what the
other one recorded.
-/
@[simp]
theorem Node.contexts_replacedBy (n r : Node)
    : (n.replacedBy r).contexts = r.contexts := by
  unfold Node.replacedBy
  induction n.recorded.toList generalizing r with
  | nil => rfl
  | cons s rest ih => exact (ih (r.including s)).trans (r.contexts_including s)

/-- A reshaped node refers to what its new shape does. -/
@[simp]
theorem Node.contexts_reshaped (n : Node) (shape : Shape)
    : (n.reshaped shape).contexts = shape.contexts := by
  simp only [Node.reshaped, Node.contexts_eq]

/-- A new node refers to what its shape does. -/
@[simp]
theorem Node.contexts_of (shape : Shape)
    : (Node.of shape).contexts = shape.contexts := by
  simp only [Node.of, Node.contexts_eq]

/-- The constant of a node refers to what the node does. -/
theorem among_of_constant? {n : Node} {v : Value} (among : Among p n.contexts)
    (constant : n.constant? = some v)
    : Among p v.contexts := by
  unfold Node.constant? at constant
  split at constant
  · rename_i w shape
    rw [Node.contexts_eq, shape] at among
    rw [← Option.some.inj constant]
    exact among
  · cases constant

/-- A node that may be changed refers to no more if the changed one does not. -/
theorem among_getD {n : Node} {o : Option Node} (among : Among p n.contexts)
    (changed : ∀ {n'}, o = some n' → Among p n'.contexts)
    : Among p (o.getD n).contexts := by
  cases o with
  | none => exact among
  | some n' => exact changed rfl

/-- Neither do several nodes that may be changed. -/
theorem nodes_among_getD {ns : List Node} {o : Option (List Node)}
    (among : Among p (contextsOfNodes ns))
    (changed : ∀ {ns'}, o = some ns' → Among p (contextsOfNodes ns'))
    : Among p (contextsOfNodes (o.getD ns)) := by
  cases o with
  | none => exact among
  | some ns' => exact changed rfl

/-- Neither do pairs that may be changed. -/
theorem pairs_among_getD {ps : List (Symbol × Node)} {o : Option (List (Symbol × Node))}
    (among : Among p (contextsOfPairs ps))
    (changed : ∀ {ps'}, o = some ps' → Among p (contextsOfPairs ps'))
    : Among p (contextsOfPairs (o.getD ps)) := by
  cases o with
  | none => exact among
  | some ps' => exact changed rfl

-----------------------------------------------------------------------------------------
-- Substitution
-----------------------------------------------------------------------------------------

mutual

/-- A substituted node refers to what the node and the bindings refer to. Witness: induction on the
node.
-/
theorem Node.among_specialized?
    : ∀ {n n' : Node} {b : Bindings}, Among p n.contexts → Among p (contextsOfBindings b)
        → n.specialized? b = some n' → Among p n'.contexts
  | ⟨shape, recorded, source, identity⟩, n', b, among, bound, changed => by
      by_cases reference : ∃ s, shape = .lookup s
      · obtain ⟨s, rfl⟩ := reference
        rw [Node.specialized?, Option.map_eq_some_iff] at changed
        obtain ⟨v, found, rfl⟩ := changed
        rw [Node.contexts_replacedBy, Node.contexts_locatedAt, Node.contexts_of, Shape.contexts]
        exact among_of_lexical? bound found
      · have other : ∀ s, shape ≠ .lookup s := fun s found => reference ⟨s, found⟩
        rw [Node.specialized?_of_ne_lookup other, Option.map_eq_some_iff] at changed
        obtain ⟨shape', inner, rfl⟩ := changed
        rw [Node.contexts_reshaped]
        rw [Node.contexts] at among
        exact Shape.among_specialized? among bound inner
termination_by structural n => n

/-- A specialized shape refers to what the shape and the bindings do, part by part. -/
theorem Shape.among_specialized?
    : ∀ {s s' : Shape} {b : Bindings}, Among p s.contexts → Among p (contextsOfBindings b)
        → s.specialized? b = some s' → Among p s'.contexts
  | .constant _, _, _, _, _, changed | .lookup _, _, _, _, _, changed
  | .quote _ _, _, _, _, _, changed | .invoke _ _ _, _, _, _, _, changed
  | .invokeStatic _ _ _, _, _, _, _, changed | .cast _ _, _, _, _, _, changed
  | .instanceOf _ _, _, _, _, _, changed => by cases changed
  | .apply f args, _, b, among, bound, changed => by
      rw [Shape.contexts, among_append] at among
      have callee : Among p ((f.specialized? b).getD f).contexts :=
        among_getD among.1 (Node.among_specialized? among.1 bound)
      have rest : Among p (contextsOfNodes ((specializedAll? args b).getD args)) :=
        nodes_among_getD among.2 (among_specializedAll? among.2 bound)
      rw [Shape.specialized?] at changed
      split at changed
      · cases changed
      · obtain rfl := Option.some.inj changed
        rw [Shape.contexts, among_append]
        exact ⟨callee, rest⟩
  | .conditional test yes no, _, b, among, bound, changed => by
      rw [Shape.contexts, among_append, among_append] at among
      have first : Among p ((test.specialized? b).getD test).contexts :=
        among_getD among.1.1 (Node.among_specialized? among.1.1 bound)
      have second : Among p ((yes.specialized? b).getD yes).contexts :=
        among_getD among.1.2 (Node.among_specialized? among.1.2 bound)
      have third : Among p ((no.specialized? b).getD no).contexts :=
        among_getD among.2 (Node.among_specialized? among.2 bound)
      rw [Shape.specialized?] at changed
      split at changed
      · cases changed
      · obtain rfl := Option.some.inj changed
        rw [Shape.contexts, among_append, among_append]
        exact ⟨⟨first, second⟩, third⟩
  | .binding pairs body, _, b, among, bound, changed => by
      rw [Shape.contexts, among_append] at among
      have exprs : Among p (contextsOfPairs ((specializedPairs? pairs b).getD pairs)) :=
        pairs_among_getD among.1 (among_specializedPairs? among.1 bound)
      have inner : Among p
          ((body.specialized? (b.eraseAll (pairs.map (·.1)))).getD body).contexts :=
        among_getD among.2 (Node.among_specialized? among.2 (among_eraseAll bound _))
      rw [Shape.specialized?] at changed
      split at changed
      · cases changed
      · obtain rfl := Option.some.inj changed
        rw [Shape.contexts, among_append]
        exact ⟨exprs, inner⟩
  | .define _ _, _, _, among, bound, changed => by
      rw [Shape.specialized?, Option.map_eq_some_iff] at changed
      obtain ⟨_, inner, rfl⟩ := changed
      exact Node.among_specialized? among bound inner
  | .lambda _ _ _, _, _, among, bound, changed => by
      rw [Shape.specialized?, Option.map_eq_some_iff] at changed
      obtain ⟨_, inner, rfl⟩ := changed
      exact Node.among_specialized? among (among_eraseAll bound _) inner
  | .expander _ _ _, _, _, among, bound, changed => by
      rw [Shape.specialized?, Option.map_eq_some_iff] at changed
      obtain ⟨_, inner, rfl⟩ := changed
      exact Node.among_specialized? among (among_eraseAll bound _) inner
  | .sequence _, _, _, among, bound, changed | .vector _, _, _, among, bound, changed
  | .list _, _, _, among, bound, changed | .hashMap _, _, _, among, bound, changed
  | .set _, _, _, among, bound, changed => by
      rw [Shape.specialized?, Option.map_eq_some_iff] at changed
      obtain ⟨_, inner, rfl⟩ := changed
      exact among_specializedAll? among bound inner
termination_by structural s => s

/-- So do specialized nodes, by the first and the others. -/
theorem among_specializedAll?
    : ∀ {ns ns' : List Node} {b : Bindings}, Among p (contextsOfNodes ns)
        → Among p (contextsOfBindings b) → specializedAll? ns b = some ns'
        → Among p (contextsOfNodes ns')
  | [], _, _, _, _, changed => by cases changed
  | n :: rest, _, b, among, bound, changed => by
      rw [contextsOfNodes, among_append] at among
      have first : Among p ((n.specialized? b).getD n).contexts :=
        among_getD among.1 (Node.among_specialized? among.1 bound)
      have others : Among p (contextsOfNodes ((specializedAll? rest b).getD rest)) :=
        nodes_among_getD among.2 (among_specializedAll? among.2 bound)
      rw [specializedAll?] at changed
      rw [consChanged_eq_some changed, contextsOfNodes, among_append]
      exact ⟨first, others⟩
termination_by structural ns => ns

/-- So do specialized pairs, by the first and the others. -/
theorem among_specializedPairs?
    : ∀ {ps ps' : List (Symbol × Node)} {b : Bindings}, Among p (contextsOfPairs ps)
        → Among p (contextsOfBindings b) → specializedPairs? ps b = some ps'
        → Among p (contextsOfPairs ps')
  | [], _, _, _, _, changed => by cases changed
  | (s, n) :: rest, _, b, among, bound, changed => by
      rw [contextsOfPairs, among_append] at among
      have first : Among p ((n.specialized? b).getD n).contexts :=
        among_getD among.1 (Node.among_specialized? among.1 bound)
      have others : Among p (contextsOfPairs ((specializedPairs? rest b).getD rest)) :=
        pairs_among_getD among.2 (among_specializedPairs? among.2 bound)
      have head : ((n.specialized? b).map (s, ·)).getD (s, n) = (s, (n.specialized? b).getD n) := by
        cases n.specialized? b <;> rfl
      rw [specializedPairs?] at changed
      rw [consChanged_eq_some changed, head, contextsOfPairs, among_append]
      exact ⟨first, others⟩
termination_by structural ps => ps

end

/-- A specialized node refers to what the node and the bindings do, changed or not. -/
theorem Node.among_specialized {n : Node} {b : Bindings} (among : Among p n.contexts)
    (bound : Among p (contextsOfBindings b))
    : Among p (n.specialized b).contexts :=
  among_getD among (Node.among_specialized? among bound)

mutual

/-- Substitution takes no constant away: what a substituted node refers to, the node refers to as
well. Witness: induction on the node.
-/
theorem Node.among_of_specialized
    : ∀ {n : Node} {b : Bindings}, Among p (n.specialized b).contexts → Among p n.contexts
  | ⟨shape, recorded, source, identity⟩, b, among => by
      by_cases reference : ∃ s, shape = .lookup s
      · obtain ⟨s, rfl⟩ := reference
        simp [Node.contexts]
      · have other : ∀ s, shape ≠ .lookup s := fun s found => reference ⟨s, found⟩
        rw [Node.contexts_eq, Node.shape_specialized other b] at among
        exact Shape.among_of_specialized among
termination_by structural n => n

/-- So does a shape, part by part. -/
theorem Shape.among_of_specialized
    : ∀ {s : Shape} {b : Bindings}, Among p (s.specialized b).contexts → Among p s.contexts
  | .constant _, _, among | .lookup _, _, among | .quote _ _, _, among | .invoke _ _ _, _, among
  | .invokeStatic _ _ _, _, among | .cast _ _, _, among | .instanceOf _ _, _, among => among
  | .apply _ _, _, among => by
      rw [Shape.specialized, Shape.contexts, among_append] at among
      rw [Shape.contexts, among_append]
      exact ⟨Node.among_of_specialized among.1, among_of_specializedAll among.2⟩
  | .conditional _ _ _, _, among => by
      rw [Shape.specialized, Shape.contexts, among_append, among_append] at among
      rw [Shape.contexts, among_append, among_append]
      exact ⟨⟨Node.among_of_specialized among.1.1, Node.among_of_specialized among.1.2⟩,
        Node.among_of_specialized among.2⟩
  | .binding _ _, _, among => by
      rw [Shape.specialized, Shape.contexts, among_append] at among
      rw [Shape.contexts, among_append]
      exact ⟨among_of_specializedPairs among.1, Node.among_of_specialized among.2⟩
  | .define _ _, _, among | .lambda _ _ _, _, among | .expander _ _ _, _, among =>
      Node.among_of_specialized among
  | .sequence _, _, among | .vector _, _, among | .list _, _, among | .hashMap _, _, among
  | .set _, _, among => among_of_specializedAll among
termination_by structural s => s

/-- So do several nodes, by the first and the others. -/
theorem among_of_specializedAll
    : ∀ {ns : List Node} {b : Bindings}, Among p (contextsOfNodes (specializedAll ns b))
        → Among p (contextsOfNodes ns)
  | [], _, among => among
  | _ :: _, _, among => by
      rw [specializedAll, List.map_cons, contextsOfNodes, among_append] at among
      rw [contextsOfNodes, among_append]
      exact ⟨Node.among_of_specialized among.1, among_of_specializedAll among.2⟩
termination_by structural ns => ns

/-- So do pairs, by the first and the others. -/
theorem among_of_specializedPairs
    : ∀ {ps : List (Symbol × Node)} {b : Bindings},
        Among p (contextsOfPairs (specializedPairs ps b))
        → Among p (contextsOfPairs ps)
  | [], _, among => among
  | _ :: _, _, among => by
      rw [specializedPairs, List.map_cons, contextsOfPairs, among_append] at among
      rw [contextsOfPairs, among_append]
      exact ⟨Node.among_of_specialized among.1, among_of_specializedPairs among.2⟩
termination_by structural ps => ps

end

/-- A node specialized to some of the bindings refers, together with the bindings, to what the node
does. Witness: to put in all the bindings at once.
-/
theorem Node.among_specialized_within {n : Node} {b more : Bindings} (within : b.Within more)
    (bound : Among p (contextsOfBindings more))
    : Among p (n.specialized b).contexts ↔ Among p n.contexts := by
  refine ⟨Node.among_of_specialized, fun among => ?_⟩
  have all : Among p ((n.specialized b).specialized more).contexts := by
    rw [Node.specialized_specialized n within]
    exact Node.among_specialized among bound
  exact Node.among_of_specialized all

-----------------------------------------------------------------------------------------
-- Simplification
-----------------------------------------------------------------------------------------

/-- The constants of nodes refer to what these do. Witness: induction on the nodes. -/
theorem among_constants? {ns : List Node} {vs : List Value} (among : Among p (contextsOfNodes ns))
    (constant : constants? ns = some vs)
    : Among p (contextsOfAll vs) := by
  unfold constants? at constant
  induction ns generalizing vs with
  | nil =>
      obtain rfl : [] = vs := by simpa using constant
      exact among_nil
  | cons n rest ih =>
      rw [contextsOfNodes, among_append] at among
      simp only [List.mapM_cons, Option.bind_eq_bind, Option.bind_eq_some_iff, Option.pure_def,
        Option.some.injEq] at constant
      obtain ⟨v, first, others, later, rfl⟩ := constant
      rw [contextsOfAll, among_append]
      exact ⟨among_of_constant? among.1 first, ih among.2 later⟩

/-- A collection of nodes refers to no more when it becomes a constant. -/
theorem Node.among_collection? {n n' : Node} {items : List Node} {items? : Option (List Node)}
    {shape : List Node → Shape} {build : List Value → Option Value}
    (among : Among p (contextsOfNodes items))
    (changed : ∀ {ns}, items? = some ns → Among p (contextsOfNodes ns))
    (shaped : ∀ {ns}, Among p (contextsOfNodes ns) → Among p (shape ns).contexts)
    (built : ∀ {vs v}, Among p (contextsOfAll vs) → build vs = some v → Among p v.contexts)
    (folded : n.collection? items items? shape build = some n')
    : Among p n'.contexts := by
  unfold Node.collection? at folded
  split at folded
  · rename_i v constant
    obtain ⟨vs, constants, built'⟩ := Option.bind_eq_some_iff.mp constant
    rw [← Option.some.inj folded, Node.foldedTo, Node.contexts_replacedBy,
      Node.contexts_locatedAt, Node.contexts_of]
    exact built (among_constants? (nodes_among_getD among changed) constants) built'
  · obtain ⟨ns, step, rfl⟩ := Option.map_eq_some_iff.mp folded
    rw [Node.contexts_reshaped]
    exact shaped (changed step)

/-- The effective nodes of a body refer to what the body does, by its recursion. -/
theorem among_effective {ns : List Node} (among : Among p (contextsOfNodes ns))
    : Among p (contextsOfNodes (effective ns)) := by
  induction ns using effective.induct with
  | case1 => exact among
  | case2 last => exact among
  | case3 n rest some constant ih =>
      rw [contextsOfNodes, among_append] at among
      rw [effective, if_pos constant]
      · exact ih among.2
      · exact some
  | case4 n rest some constant ih =>
      rw [contextsOfNodes, among_append] at among
      rw [effective, if_neg constant, contextsOfNodes, among_append]
      · exact ⟨among.1, ih among.2⟩
      · exact some

/-- So does a simplified sequence, by the number of its effective nodes. -/
theorem Node.among_sequenceOf {n : Node} {body : List Node} (among : Among p (contextsOfNodes body))
    : Among p (n.sequenceOf body).contexts := by
  have kept := among_effective among
  unfold Node.sequenceOf
  split
  · simp
  · rename_i only last
    rw [Node.contexts_replacedBy]
    rw [last, contextsOfNodes, among_append] at kept
    exact kept.1
  · rw [Node.contexts_reshaped]
    exact kept

/-- A simplified conditional refers to what its parts do, by its test. -/
theorem Node.among_conditionalOf {n test yes no : Node} (first : Among p test.contexts)
    (second : Among p yes.contexts) (third : Among p no.contexts)
    : Among p (n.conditionalOf test yes no).contexts := by
  unfold Node.conditionalOf
  split
  · rw [Node.contexts_replacedBy]
    split
    · exact second
    · exact third
  · rw [Node.contexts_reshaped, Shape.contexts, among_append, among_append]
    exact ⟨⟨first, second⟩, third⟩

variable {a : Arrangement}

mutual

/-- A simplified node refers to what the node refers to. Witness: induction on the node. -/
theorem Node.among_optimized?
    : ∀ {n n' : Node}, Among p n.contexts → n.optimized? a = some n' → Among p n'.contexts
  | ⟨_, _, _, _⟩, _, among, changed => Shape.among_optimizedIn? among changed
termination_by structural n => n

/-- A simplified shape refers to what the shape does, part by part. -/
theorem Shape.among_optimizedIn?
    : ∀ {s : Shape} {n n' : Node}, Among p s.contexts → s.optimizedIn? a n = some n'
        → Among p n'.contexts
  | .constant _, _, _, _, changed | .lookup _, _, _, _, changed
  | .invoke _ _ _, _, _, _, changed | .invokeStatic _ _ _, _, _, _, changed
  | .cast _ _, _, _, _, changed | .instanceOf _ _, _, _, _, changed => by cases changed
  | .apply f args, _, _, among, changed => by
      rw [Shape.contexts, among_append] at among
      have callee : Among p ((f.optimized? a).getD f).contexts :=
        among_getD among.1 (Node.among_optimized? among.1)
      have rest : Among p (contextsOfNodes ((optimizedAll? a args).getD args)) :=
        nodes_among_getD among.2 (among_optimizedAll? among.2)
      rw [Shape.optimizedIn?] at changed
      split at changed
      · cases changed
      · obtain rfl := Option.some.inj changed
        rw [Node.contexts_reshaped, Shape.contexts, among_append]
        exact ⟨callee, rest⟩
  | .conditional test yes no, _, _, among, changed => by
      rw [Shape.contexts, among_append, among_append] at among
      obtain rfl := Option.some.inj changed
      exact Node.among_conditionalOf
        (among_getD among.1.1 (Node.among_optimized? among.1.1))
        (among_getD among.1.2 (Node.among_optimized? among.1.2))
        (among_getD among.2 (Node.among_optimized? among.2))
  | .binding pairs body, _, _, among, changed => by
      rw [Shape.contexts, among_append] at among
      have exprs : Among p (contextsOfPairs ((optimizedPairs? a pairs).getD pairs)) :=
        pairs_among_getD among.1 (among_optimizedPairs? among.1)
      have inner : Among p ((body.optimized? a).getD body).contexts :=
        among_getD among.2 (Node.among_optimized? among.2)
      rw [Shape.optimizedIn?] at changed
      split at changed <;> obtain rfl := Option.some.inj changed
      · rw [Node.contexts_replacedBy]
        exact inner
      · rw [Node.contexts_reshaped, Shape.contexts, among_append]
        exact ⟨exprs, inner⟩
  | .sequence body, _, _, among, changed => by
      obtain rfl := Option.some.inj changed
      exact Node.among_sequenceOf (nodes_among_getD among (among_optimizedAll? among))
  | .quote form _, _, _, among, changed => by
      obtain rfl := Option.some.inj changed
      rw [Node.foldedTo, Node.contexts_replacedBy, Node.contexts_locatedAt, Node.contexts_of]
      exact among
  | .define _ _, _, _, among, changed | .lambda _ _ _, _, _, among, changed
  | .expander _ _ _, _, _, among, changed => by
      rw [Shape.optimizedIn?, Option.map_eq_some_iff] at changed
      obtain ⟨_, inner, rfl⟩ := changed
      rw [Node.contexts_reshaped]
      exact Node.among_optimized? among inner
  | .vector _, _, _, among, changed =>
      Node.among_collection? among (among_optimizedAll? among) id
        (fun values built => by rw [← Option.some.inj built]; exact values) changed
  | .list _, _, _, among, changed =>
      Node.among_collection? among (among_optimizedAll? among) id
        (fun values built => by rw [← Option.some.inj built]; exact values) changed
  | .hashMap _, _, _, among, changed =>
      Node.among_collection? among (among_optimizedAll? among) id among_mapOfItems? changed
  | .set _, _, _, among, changed =>
      Node.among_collection? among (among_optimizedAll? among) id
        (fun values built => Option.some.inj built ▸ among_setOf values) changed
termination_by structural s => s

/-- So do simplified nodes, by the first and the others. -/
theorem among_optimizedAll?
    : ∀ {ns ns' : List Node}, Among p (contextsOfNodes ns) → optimizedAll? a ns = some ns'
        → Among p (contextsOfNodes ns')
  | [], _, _, changed => by cases changed
  | n :: rest, _, among, changed => by
      rw [contextsOfNodes, among_append] at among
      have first : Among p ((n.optimized? a).getD n).contexts :=
        among_getD among.1 (Node.among_optimized? among.1)
      have others : Among p (contextsOfNodes ((optimizedAll? a rest).getD rest)) :=
        nodes_among_getD among.2 (among_optimizedAll? among.2)
      rw [optimizedAll?] at changed
      rw [consChanged_eq_some changed, contextsOfNodes, among_append]
      exact ⟨first, others⟩
termination_by structural ns => ns

/-- So do simplified pairs, by the first and the others. -/
theorem among_optimizedPairs?
    : ∀ {ps ps' : List (Symbol × Node)}, Among p (contextsOfPairs ps)
        → optimizedPairs? a ps = some ps' → Among p (contextsOfPairs ps')
  | [], _, _, changed => by cases changed
  | (s, n) :: rest, _, among, changed => by
      rw [contextsOfPairs, among_append] at among
      have first : Among p ((n.optimized? a).getD n).contexts :=
        among_getD among.1 (Node.among_optimized? among.1)
      have others : Among p (contextsOfPairs ((optimizedPairs? a rest).getD rest)) :=
        pairs_among_getD among.2 (among_optimizedPairs? among.2)
      have head : ((n.optimized? a).map (s, ·)).getD (s, n) = (s, (n.optimized? a).getD n) := by
        cases n.optimized? a <;> rfl
      rw [optimizedPairs?] at changed
      rw [consChanged_eq_some changed, head, contextsOfPairs, among_append]
      exact ⟨first, others⟩
termination_by structural ps => ps

end

/-- A simplified node refers to what the node does, changed or not. -/
theorem Node.among_optimized {n : Node} (among : Among p n.contexts)
    : Among p (n.optimized a).contexts :=
  among_getD among (Node.among_optimized? among)

end IncrementalLisp
