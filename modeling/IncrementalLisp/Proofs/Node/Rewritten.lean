import IncrementalLisp.Proofs.Node.Dependencies

/-! What specialization and simplification do to the dependencies of a node. Both leave some parts
of a node in place and put other nodes in the place of the rest; a node in the place of another
takes over what was recorded there. So no dependency is invented, and none is lost but with the
part that had it.
-/

namespace IncrementalLisp

-----------------------------------------------------------------------------------------
-- Recorded dependencies
-----------------------------------------------------------------------------------------

/-- A node with one more dependency has this one and its own. -/
theorem Node.mem_dependencies_including {n : Node} {s d : Symbol}
    : d ∈ (n.including s).dependencies ↔ d = s ∨ d ∈ n.dependencies := by
  refine ⟨Node.including_within, ?_⟩
  unfold Node.including
  split
  · rename_i known
    rintro (rfl | depends)
    · exact known
    · exact depends
  · simp only [Node.mem_dependencies, Std.ExtTreeSet.mem_insert, Std.LawfulEqCmp.compare_eq_iff_eq]
    rintro (rfl | inner | recorded)
    · exact Or.inr (Or.inl rfl)
    · exact Or.inl inner
    · exact Or.inr (Or.inr recorded)

/-- A node in the place of another depends on what it did and on all that was recorded there. -/
theorem Node.mem_dependencies_replacedBy {n r : Node} {d : Symbol}
    : d ∈ (n.replacedBy r).dependencies ↔ d ∈ n.recorded ∨ d ∈ r.dependencies := by
  have listed : d ∈ n.recorded ↔ d ∈ n.recorded.toList := Std.ExtTreeSet.mem_toList.symm
  rw [Node.replacedBy, listed]
  induction n.recorded.toList generalizing r with
  | nil => simp
  | cons s rest ih =>
      simp only [List.foldl_cons, ih, Node.mem_dependencies_including, List.mem_cons]
      tauto

/-- A reshaped node has what is recorded and what its new shape depends on. -/
theorem Node.mem_dependencies_reshaped {n : Node} {shape : Shape} {d : Symbol}
    : d ∈ (n.reshaped shape).dependencies ↔ d ∈ n.recorded ∨ d ∈ shape.dependencies := by
  rw [Node.mem_dependencies, or_comm]
  rfl

-----------------------------------------------------------------------------------------
-- Specialization
-----------------------------------------------------------------------------------------

/-- Whether a shape is a host operation. Both rewrites leave these as they are. -/
def Shape.asksHost : Shape → Bool
  | .invoke _ _ _ | .invokeStatic _ _ _ | .cast _ _ | .instanceOf _ _ => true
  | _ => false

/-- A shape that asks the host is not specialized. -/
theorem Shape.specialized_of_asksHost {shape : Shape} (asks : shape.asksHost = true) (b : Bindings)
    : shape.specialized b = shape := by
  cases shape <;> simp_all [Shape.asksHost, Shape.specialized]

/-- The sites of a specialized shape. The names bound at a site are not substituted there. -/
theorem Shape.sites_specialized {shape : Shape} (inside : shape.asksHost = false) (b : Bindings)
    : (shape.specialized b).sites
      = shape.sites.map fun site => (site.1, site.2.specialized (b.eraseAll site.1)) := by
  cases shape <;>
    simp_all [Shape.specialized, Shape.sites, Shape.parts, Shape.asksHost, specializedAll,
      specializedPairs, Bindings.eraseAll, Function.comp_def]

/-- A symbol without a lexical value has none after some names were erased. -/
theorem Bindings.lexical?_eraseAll_of_none {b : Bindings} {s : Symbol} (free : b.lexical? s = none)
    (names : List Symbol)
    : (b.eraseAll names).lexical? s = none := by
  unfold Bindings.lexical? at free ⊢
  rw [get?_eraseAll]
  grind

/-- The shape of a specialized node depends on the shape of the node alone. -/
theorem Node.shape_specialized_congr {n m : Node} (same : n.shape = m.shape) (b : Bindings)
    : (n.specialized b).shape = (m.specialized b).shape := by
  by_cases reference : ∃ t, m.shape = .lookup t
  · obtain ⟨t, named⟩ := reference
    obtain ⟨shape, recorded, source, identity⟩ := n
    obtain ⟨shape', recorded', source', identity'⟩ := m
    obtain rfl : shape = shape' := same
    obtain rfl : shape = .lookup t := named
    cases bound : b.lexical? t with
    | none => simp only [Node.specialized_lookup_of_none bound]
    | some v =>
        simp only [Node.specialized_lookup_of_some bound, Node.shape_replacedBy,
          Node.shape_locatedAt]
  · have other := not_exists.mp reference
    rw [Node.shape_specialized other, Node.shape_specialized (same ▸ other), same]

/-- What is recorded on a node stays among its dependencies. -/
theorem Node.mem_dependencies_specialized_of_recorded {n : Node} {s : Symbol}
    (recorded : s ∈ n.recorded) (b : Bindings)
    : s ∈ (n.specialized b).dependencies := by
  by_cases reference : ∃ t, n.shape = .lookup t
  · obtain ⟨shape, own, source, identity⟩ := n
    obtain ⟨t, rfl⟩ := reference
    cases bound : b.lexical? t with
    | none =>
        rw [Node.specialized_lookup_of_none bound]
        exact Node.mem_dependencies.mpr (Or.inr recorded)
    | some v =>
        rw [Node.specialized_lookup_of_some bound]
        exact Node.mem_dependencies_replacedBy.mpr (Or.inl recorded)
  · rw [Node.specialized_of_ne_lookup (not_exists.mp reference)]
    split
    · exact Node.mem_dependencies_reshaped.mpr (Or.inl recorded)
    · exact Node.mem_dependencies.mpr (Or.inr recorded)

/-- Substitution takes no dependencies away but the lexical names that have a value. Witness:
induction on the node; a name that has no value has none at any site of it.
-/
theorem Node.mem_dependencies_specialized {n : Node} {s : Symbol} {b : Bindings}
    (depends : s ∈ n.dependencies) (free : b.lexical? s = none)
    : s ∈ (n.specialized b).dependencies := by
  induction n using Node.induction_parts generalizing b with
  | step n ih =>
      rcases Node.mem_dependencies.mp depends with inner | recorded
      · by_cases reference : ∃ t, n.shape = .lookup t
        · obtain ⟨shape, own, source, identity⟩ := n
          obtain ⟨t, rfl⟩ := reference
          obtain rfl : t = s := by
            simpa [Shape.dependencies, Std.LawfulEqCmp.compare_eq_iff_eq] using inner
          rwa [Node.specialized_lookup_of_none free]
        · rw [Node.mem_dependencies, Node.shape_specialized (not_exists.mp reference)]
          cases host : n.shape.asksHost with
          | true =>
              rw [Shape.specialized_of_asksHost host]
              exact Or.inl inner
          | false =>
              rcases Shape.mem_dependencies.mp inner with named | ⟨⟨names, part⟩, site, outside, below⟩
              · exact absurd ⟨s, named⟩ reference
              · have left : (names, part.specialized (b.eraseAll names))
                    ∈ (n.shape.specialized b).sites := by
                  rw [Shape.sites_specialized host]
                  exact List.mem_map_of_mem site
                have found := ih part (Shape.part_of_sites site) below
                  (Bindings.lexical?_eraseAll_of_none free names)
                exact Or.inl (Shape.mem_dependencies.mpr (Or.inr ⟨_, left, outside, found⟩))
      · exact Node.mem_dependencies_specialized_of_recorded recorded b

-----------------------------------------------------------------------------------------
-- Simplification
-----------------------------------------------------------------------------------------

/-- The nodes of a sequence that matter: the last one, and before it those that do not become
constant.
-/
def essential (a : Arrangement)
    : List Node → List Node
  | [] => []
  | [last] => [last]
  | n :: rest => if (n.optimized a).isConstant then essential a rest else n :: essential a rest

/-- The items of a collection that are left: none, if they all become constant. -/
def unfolded (a : Arrangement) (items : List Node) (build : List Value → Option Value)
    : List Node :=
  if ((constants? (items.map (Node.optimized a))).bind build).isSome then [] else items

/-- The sites of a shape that are left in its simpler form, each with its part as it was before. The
parts of a host operation are not simplified and not listed.
-/
def Shape.kept (a : Arrangement)
    : Shape → List (List Symbol × Node)
  | .sequence body => (essential a body).map ([], ·)
  | .conditional test yes no =>
      match (test.optimized a).constant? with
      | some v => [([], if v.isTruthy then yes else no)]
      | none => [([], test), ([], yes), ([], no)]
  | .vector items => (unfolded a items (some ∘ .vector)).map ([], ·)
  | .list items => (unfolded a items (some ∘ .listOf)).map ([], ·)
  | .hashMap items => (unfolded a items (mapOfItems? a)).map ([], ·)
  | .set items => (unfolded a items (some ∘ .setOf a)).map ([], ·)
  | .invoke _ _ _ | .invokeStatic _ _ _ | .cast _ _ | .instanceOf _ _ => []
  | other => other.sites

/-- (n.Keeps a names m) says that the simpler form of the second node stands in the simpler form of
the first, and names are all that the binders on the way to it bind.
-/
inductive Node.Keeps (a : Arrangement) : Node → List Symbol → Node → Prop where
  | whole (n : Node)
    : n.Keeps a [] n
  | part {n inner m : Node} {names more : List Symbol} (site : (names, inner) ∈ n.shape.kept a)
      (kept : inner.Keeps a more m)
    : n.Keeps a (names ++ more) m

section Simplified

variable {a : Arrangement}

/-- The essential nodes of a body are among its nodes, by its recursion. -/
theorem mem_of_essential {m : Node} {body : List Node} (member : m ∈ essential a body)
    : m ∈ body := by
  induction body using essential.induct a with
  | case1 | case2 => exact member
  | case3 n rest more constant ih =>
      rw [essential, if_pos constant] at member
      · exact List.mem_cons_of_mem n (ih member)
      · exact more
  | case4 n rest more varies ih =>
      rw [essential, if_neg varies] at member
      · rcases List.mem_cons.mp member with rfl | later
        · exact List.mem_cons_self
        · exact List.mem_cons_of_mem n (ih later)
      · exact more

/-- The items that are left unfolded are among the items. -/
theorem mem_of_unfolded {m : Node} {items : List Node} {build : List Value → Option Value}
    (member : m ∈ unfolded a items build)
    : m ∈ items := by
  unfold unfolded at member
  split at member
  · cases member
  · exact member

/-- What a simplified shape keeps stands at a site of the shape, by cases on the shape. -/
theorem Shape.sites_of_kept {shape : Shape} {names : List Symbol} {part : Node}
    (kept : (names, part) ∈ shape.kept a)
    : (names, part) ∈ shape.sites := by
  cases shape with
  | sequence =>
      simp only [Shape.kept, Shape.sites, Shape.parts, List.mem_map, Prod.mk.injEq] at kept ⊢
      obtain ⟨m, member, found⟩ := kept
      exact ⟨m, mem_of_essential member, found⟩
  | conditional test yes no =>
      simp only [Shape.kept, Shape.sites, Shape.parts] at kept ⊢
      split at kept
      · split at kept <;> simp_all
      · exact kept
  | vector | list | hashMap | set =>
      simp only [Shape.kept, Shape.sites, Shape.parts, List.mem_map, Prod.mk.injEq] at kept ⊢
      obtain ⟨m, member, found⟩ := kept
      exact ⟨m, mem_of_unfolded member, found⟩
  | invoke | invokeStatic | cast | instanceOf => cases kept
  | _ => exact kept

/-- The effective ones of simplified nodes are the essential nodes, simplified, by the recursion of
both.
-/
theorem effective_map_optimized (body : List Node)
    : effective (body.map (Node.optimized a)) = (essential a body).map (Node.optimized a) := by
  induction body using essential.induct a <;> simp_all [essential, effective]

/-- A folded node depends on what was recorded, and on nothing besides. -/
theorem Node.mem_dependencies_foldedTo {n : Node} {v : Value} {s : Symbol}
    : s ∈ (n.foldedTo v).dependencies ↔ s ∈ n.recorded := by
  simp [Node.foldedTo, Node.mem_dependencies_replacedBy, Node.dependencies_constant_locatedAt]

/-- A simplified sequence depends on what was recorded and on its effective nodes, by their number.
-/
theorem Node.mem_dependencies_sequenceOf {n : Node} {body : List Node} {s : Symbol}
    : s ∈ (n.sequenceOf body).dependencies
      ↔ s ∈ n.recorded ∨ ∃ m ∈ effective body, s ∈ m.dependencies := by
  unfold Node.sequenceOf
  rcases effective body with _ | ⟨only, _ | ⟨next, rest⟩⟩
  · have none : (Node.constant .nil).dependencies = ∅ := rfl
    simp only [Node.mem_dependencies_replacedBy, none]
    simp
  · simp [Node.mem_dependencies_replacedBy]
  · simp only [Node.mem_dependencies_reshaped, Shape.dependencies, mem_dependenciesOfAll]

/-- A simplified conditional depends on what was recorded and on what its test leaves of it. -/
theorem Node.mem_dependencies_conditionalOf (n test yes no : Node) {s : Symbol}
    : s ∈ (n.conditionalOf test yes no).dependencies
      ↔ s ∈ n.recorded ∨ match test.constant? with
        | some v => s ∈ (if v.isTruthy then yes else no).dependencies
        | none => s ∈ test.dependencies ∨ s ∈ yes.dependencies ∨ s ∈ no.dependencies := by
  unfold Node.conditionalOf
  cases test.constant? with
  | some v => exact Node.mem_dependencies_replacedBy
  | none => simp [Node.mem_dependencies_reshaped, Shape.dependencies, or_assoc]

/-- A collection that is simplified by folding depends on the items that are left. -/
theorem Node.mem_dependencies_collection? {n : Node} {items : List Node}
    {shape : List Node → Shape} {build : List Value → Option Value}
    (folded : n.optimized a = (n.collection? items (optimizedAll? a items) shape build).getD n)
    (same : n.shape = shape items) (plain : ∀ ns, (shape ns).dependencies = dependenciesOfAll ns)
    {s : Symbol}
    : s ∈ (n.optimized a).dependencies
      ↔ s ∈ n.recorded ∨ ∃ m ∈ unfolded a items build, s ∈ (m.optimized a).dependencies := by
  rw [folded]
  unfold Node.collection? unfolded
  rw [optimizedAll?_getD]
  cases (constants? (items.map (Node.optimized a))).bind build with
  | some v => simp [Node.mem_dependencies_foldedTo]
  | none =>
      have left : s ∈ dependenciesOfAll ((optimizedAll? a items).getD items)
          ↔ ∃ m ∈ items, s ∈ (m.optimized a).dependencies := by
        simp [optimizedAll?_getD, mem_dependenciesOfAll]
      cases changed : optimizedAll? a items with
      | none =>
          rw [changed, Option.getD_none] at left
          simp [Node.mem_dependencies, same, plain, left, or_comm]
      | some others =>
          rw [changed, Option.getD_some] at left
          simp [Node.mem_dependencies_reshaped, plain, left]

/-- A node is simplified as its shape says, or stays. -/
theorem Node.optimized_eq (n : Node)
    : n.optimized a = (n.shape.optimizedIn? a n).getD n := by
  obtain ⟨shape, recorded, source, identity⟩ := n
  rw [Node.optimized, Node.optimized?]

/-- A simplified node that keeps its record depends on what its simpler shape does. -/
theorem Node.mem_dependencies_of_recorded {n : Node} {s : Symbol}
    (same : (n.optimized a).recorded = n.recorded)
    : s ∈ (n.optimized a).dependencies ↔ s ∈ n.recorded ∨ s ∈
      (n.shape.optimized a).dependencies := by
  rw [Node.mem_dependencies, Node.shape_optimized, same, or_comm]

/-- What a simplified node depends on: what was recorded on it, the symbol that it refers to itself,
and what the simpler forms of the parts that are left depend on.
-/
theorem Node.mem_dependencies_optimized {n : Node} {s : Symbol}
    : s ∈ (n.optimized a).dependencies
      ↔ s ∈ n.recorded ∨ n.shape = .lookup s
        ∨ (∃ site ∈ n.shape.kept a, s ∉ site.1 ∧ s ∈ (site.2.optimized a).dependencies)
        ∨ (n.shape.asksHost ∧ s ∈ n.shape.dependencies) := by
  obtain ⟨shape, recorded, source, identity⟩ := n
  cases shape with
  | constant | lookup | invoke | invokeStatic | cast | instanceOf =>
      simp [Node.optimized_eq, Shape.optimizedIn?, Node.mem_dependencies, Shape.kept, Shape.sites,
        Shape.parts, Shape.asksHost, Shape.dependencies, Std.LawfulEqCmp.compare_eq_iff_eq, or_comm]
  | quote form isSyntax =>
      simp [Node.optimized_eq, Shape.optimizedIn?, Node.mem_dependencies_foldedTo, Shape.kept,
        Shape.sites, Shape.parts, Shape.asksHost]
  | sequence body =>
      rw [Node.optimized_eq]
      simp [Shape.optimizedIn?, optimizedAll?_getD, Node.mem_dependencies_sequenceOf,
        effective_map_optimized, Shape.kept, Shape.asksHost]
  | conditional test yes no =>
      refine (Node.mem_dependencies_conditionalOf ⟨.conditional test yes no, recorded, source, identity⟩
        (test.optimized a) (yes.optimized a) (no.optimized a)).trans ?_
      simp only [Shape.kept]
      cases (test.optimized a).constant? with
      | none => simp [Shape.asksHost]
      | some v =>
          have chosen : (if v.isTruthy then yes else no).optimized a
              = if v.isTruthy then yes.optimized a else no.optimized a := apply_ite _ _ _ _
          simp [Shape.asksHost, chosen]
  | binding pairs body =>
      rw [Node.optimized_eq, Shape.optimizedIn?, optimizedPairs?_getD]
      cases pairs with
      | nil =>
          simp [Node.mem_dependencies_replacedBy, Shape.kept, Shape.sites, Shape.asksHost,
            Node.optimized]
      | cons pair rest =>
          simp [Node.mem_dependencies_reshaped, Shape.dependencies, SymbolSet.mem_without,
            mem_dependenciesOfPairs, Shape.kept, Shape.sites, Shape.asksHost, Node.optimized]
          grind
  | apply f args =>
      have same : ((Node.mk (.apply f args) recorded source identity).optimized a).recorded
          = recorded := by
        rw [Node.optimized_eq, Shape.optimizedIn?]
        cases f.optimized? a <;> cases optimizedAll? a args <;> rfl
      rw [Node.mem_dependencies_of_recorded same]
      simp [Shape.optimized, Shape.dependencies, Shape.kept, Shape.sites, Shape.parts,
        Shape.asksHost, mem_dependenciesOfAll]
  | define name expr =>
      have same : ((Node.mk (.define name expr) recorded source identity).optimized a).recorded
          = recorded := by
        rw [Node.optimized_eq, Shape.optimizedIn?]
        cases expr.optimized? a <;> rfl
      rw [Node.mem_dependencies_of_recorded same]
      simp [Shape.optimized, Shape.dependencies, Shape.kept, Shape.sites, Shape.parts,
        Shape.asksHost]
  | lambda params rest body =>
      have same : ((Node.mk (.lambda params rest body) recorded source identity).optimized a).recorded
          = recorded := by
        rw [Node.optimized_eq, Shape.optimizedIn?]
        cases body.optimized? a <;> rfl
      rw [Node.mem_dependencies_of_recorded same]
      simp [Shape.optimized, Shape.dependencies, Shape.kept, Shape.sites, Shape.asksHost,
        SymbolSet.mem_without, and_comm]
  | expander continuation params body =>
      have same
          : ((Node.mk (.expander continuation params body) recorded source identity).optimized a).recorded
            = recorded := by
        rw [Node.optimized_eq, Shape.optimizedIn?]
        cases body.optimized? a <;> rfl
      rw [Node.mem_dependencies_of_recorded same]
      simp [Shape.optimized, Shape.dependencies, Shape.kept, Shape.sites, Shape.asksHost,
        SymbolSet.mem_without, and_comm]
  | vector items =>
      rw [Node.mem_dependencies_collection? (n := ⟨.vector items, _, _, _⟩) rfl rfl fun _ => rfl]
      simp [Shape.kept, Shape.asksHost]
  | list items =>
      rw [Node.mem_dependencies_collection? (n := ⟨.list items, _, _, _⟩) rfl rfl fun _ => rfl]
      simp [Shape.kept, Shape.asksHost]
  | hashMap items =>
      rw [Node.mem_dependencies_collection? (n := ⟨.hashMap items, _, _, _⟩) rfl rfl fun _ => rfl]
      simp [Shape.kept, Shape.asksHost]
  | set items =>
      rw [Node.mem_dependencies_collection? (n := ⟨.set items, _, _, _⟩) rfl rfl fun _ => rfl]
      simp [Shape.kept, Shape.asksHost]

/-- Simplification invents no dependencies. Witness: induction on the node. -/
theorem Node.optimized_within (n : Node)
    : (n.optimized a).dependencies.Within n.dependencies := by
  induction n using Node.induction_parts with
  | step n ih =>
      intro s depends
      rw [Node.mem_dependencies, Shape.mem_dependencies]
      rcases Node.mem_dependencies_optimized.mp depends
        with recorded | reference | ⟨site, kept, outside, below⟩ | ⟨_, inner⟩
      · exact Or.inr recorded
      · exact Or.inl (Or.inl reference)
      · have site := Shape.sites_of_kept kept
        exact Or.inl (Or.inr ⟨_, site, outside, ih _ (Shape.part_of_sites site) s below⟩)
      · exact Or.inl (Shape.mem_dependencies.mp inner)

/-- What the simpler form of a kept node depends on, the simpler form of the whole node depends on,
but for the names bound on the way.
-/
theorem Node.Keeps.mem_dependencies {n m : Node} {names : List Symbol} {s : Symbol}
    (kept : n.Keeps a names m) (depends : s ∈ (m.optimized a).dependencies) (free : s ∉ names)
    : s ∈ (n.optimized a).dependencies := by
  induction kept with
  | whole => exact depends
  | part site _ ih =>
      simp only [List.mem_append, not_or] at free
      exact Node.mem_dependencies_optimized.mpr
        (Or.inr (Or.inr (Or.inl ⟨_, site, free.1, ih depends free.2⟩)))

end Simplified

-----------------------------------------------------------------------------------------
-- Both rewrites
-----------------------------------------------------------------------------------------

/-- Rewrites neither invent nor lose dependencies. Specialization takes away at most the lexical
names that have a value, simplification only what the parts that it drops depend on: the result
depends on whatever the nodes in it depend on, and on whatever the simpler forms of the nodes that
it keeps depend on, but for the names bound on the way to them.
-/
theorem Node.rewrites_keep_dependencies (n : Node) (b : Bindings) (a : Arrangement)
    : (∀ s ∈ n.dependencies, b.lexical? s = none → s ∈ (n.specialized b).dependencies)
      ∧ (n.specialized b).dependencies.Within n.dependencies
      ∧ (n.optimized a).dependencies.Within n.dependencies
      ∧ (∀ names m, (n.optimized a).Holds names m → ∀ s ∈ m.dependencies, s ∉ names
        → s ∈ (n.optimized a).dependencies)
      ∧ ∀ names m, n.Keeps a names m → ∀ s ∈ (m.optimized a).dependencies, s ∉ names
        → s ∈ (n.optimized a).dependencies :=
  ⟨fun _ depends free => Node.mem_dependencies_specialized depends free,
    Node.specialized_within n b, Node.optimized_within n,
    fun _ _ held _ depends free => held.mem_dependencies depends free,
    fun _ _ kept _ depends free => kept.mem_dependencies depends free⟩

-----------------------------------------------------------------------------------------
-- Dependencies added on purpose
-----------------------------------------------------------------------------------------

/-- A way to rewrite a node. -/
inductive Rewrite where
  | specialization (b : Bindings)
  | simplification (a : Arrangement)

/-- A node after some rewrites, the first one first. -/
def Node.rewritten (n : Node) : List Rewrite → Node
  | [] => n
  | .specialization b :: rest => (n.specialized b).rewritten rest
  | .simplification a :: rest => (n.optimized a).rewritten rest

/-- (n.Remembers s) says that a symbol is recorded on a node whose parts do not depend on it. -/
def Node.Remembers (n : Node) (s : Symbol)
    : Prop :=
  s ∈ n.recorded ∧ s ∉ n.shape.dependencies

namespace Node.Remembers

variable {n : Node} {s : Symbol} {a : Arrangement}

/-- A dependency of a node is remembered if the parts of the node do not have it. -/
theorem of_mem_dependencies (depends : s ∈ n.dependencies) (apart : s ∉ n.shape.dependencies)
    : n.Remembers s := by
  rcases Node.mem_dependencies.mp depends with inner | recorded
  · exact absurd inner apart
  · exact ⟨recorded, apart⟩

/-- Adding a dependency makes it remembered, if the parts of the node do not have it already. -/
theorem including (apart : s ∉ n.shape.dependencies)
    : (n.including s).Remembers s := by
  refine of_mem_dependencies (Node.mem_dependencies_including.mpr (Or.inl rfl)) ?_
  rwa [Node.shape_including]

/-- A specialized node remembers what the node does, since its dependencies are kept. -/
theorem specialized (remembers : n.Remembers s) (b : Bindings)
    : (n.specialized b).Remembers s := by
  obtain ⟨recorded, apart⟩ := remembers
  refine of_mem_dependencies (Node.mem_dependencies_specialized_of_recorded recorded b) ?_
  have same := Node.shape_specialized_congr (n := n) (m := Node.of n.shape) rfl b
  rw [same]
  intro inner
  have known := Node.specialized_within _ b s (Node.mem_dependencies.mpr (Or.inl inner))
  simp [Node.mem_dependencies, Node.of, apart] at known

/-- So does a simplified node. -/
theorem optimized (remembers : n.Remembers s)
    : (n.optimized a).Remembers s := by
  obtain ⟨recorded, apart⟩ := remembers
  refine of_mem_dependencies (Node.mem_dependencies_optimized.mpr (Or.inl recorded)) ?_
  rw [Node.shape_optimized]
  intro inner
  -- the same shape with nothing recorded on it
  have bare : s ∈ ((Node.of n.shape).optimized a).dependencies := by
    rw [Node.mem_dependencies, Node.shape_optimized]
    exact Or.inl inner
  have known := Node.optimized_within _ s bare
  simp [Node.mem_dependencies, Node.of, apart] at known

/-- So does a node after any rewrites. Witness: induction on them. -/
theorem rewritten (remembers : n.Remembers s) (steps : List Rewrite)
    : (n.rewritten steps).Remembers s := by
  induction steps generalizing n with
  | nil => exact remembers
  | cons step rest ih =>
      cases step with
      | specialization b => exact ih (remembers.specialized b)
      | simplification a => exact ih remembers.optimized

end Node.Remembers

/-- A dependency added on purpose survives every sequence of rewrites, if it is not one of the parts
of the node already. A symbol that is among those is not recorded, and is lost with the part that
depends on it.
-/
theorem Node.included_dependency_survives {n : Node} {s : Symbol}
    (apart : s ∉ n.shape.dependencies) (steps : List Rewrite)
    : s ∈ ((n.including s).rewritten steps).dependencies :=
  Node.mem_dependencies.mpr (Or.inr ((Node.Remembers.including apart).rewritten steps).1)

end IncrementalLisp
