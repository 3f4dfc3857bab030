import IncrementalLisp.Proofs.Node.Alike
import IncrementalLisp.Proofs.Node.Parts

/-! What the dependencies of a node consist of: the references in it and the dependencies recorded
in it, at any depth, each unless a name of a binder on the way takes it. They are computed node by
node; here they are read off the sites of the node.
-/

namespace IncrementalLisp

-----------------------------------------------------------------------------------------
-- Sites in nodes
-----------------------------------------------------------------------------------------

/-- The parts of a shape, each with the names that the shape binds in it. -/
def Shape.sites : Shape → List (List Symbol × Node)
  | .binding pairs body => (pairs.map (·.1), body) :: pairs.map fun pair => ([], pair.2)
  | .lambda params rest body => [(params ++ rest.toList, body)]
  | .expander continuation params body => [(params ++ [continuation], body)]
  | other => other.parts.map ([], ·)

/-- (n.Holds names m) says that the second node stands somewhere in the first, and names are all
that the binders on the way to it bind. The nodes in constants and quotes are data.
-/
inductive Node.Holds : Node → List Symbol → Node → Prop where
  | whole (n : Node)
    : n.Holds [] n
  | part {n inner m : Node} {names more : List Symbol} (site : (names, inner) ∈ n.shape.sites)
      (held : inner.Holds more m)
    : n.Holds (names ++ more) m

/-- A part at some site of a shape is a part of it, by cases on the shape. -/
theorem Shape.part_of_sites {shape : Shape} {names : List Symbol} {part : Node}
    (site : (names, part) ∈ shape.sites)
    : part ∈ shape.parts := by
  cases shape <;> simp only [Shape.sites, Shape.parts, List.mem_map, List.mem_cons,
    List.not_mem_nil, Prod.mk.injEq, or_false] at site ⊢ <;> grind

-----------------------------------------------------------------------------------------
-- Dependencies by site
-----------------------------------------------------------------------------------------

/-- Several nodes depend on what one of them depends on. Witness: induction on the nodes. -/
theorem mem_dependenciesOfAll {s : Symbol} {nodes : List Node}
    : s ∈ dependenciesOfAll nodes ↔ ∃ n ∈ nodes, s ∈ n.dependencies := by
  induction nodes with
  | nil => simp [dependenciesOfAll]
  | cons n rest ih => simp [dependenciesOfAll, ih]

/-- So do the expressions of pairs. Witness: induction on the pairs. -/
theorem mem_dependenciesOfPairs {s : Symbol} {pairs : List (Symbol × Node)}
    : s ∈ dependenciesOfPairs pairs ↔ ∃ pair ∈ pairs, s ∈ pair.2.dependencies := by
  induction pairs with
  | nil => simp [dependenciesOfPairs]
  | cons pair rest ih => simp [dependenciesOfPairs, ih]

/-- A shape depends on what it refers to itself, and on what its parts depend on, but for the names
that it binds in them.
-/
theorem Shape.mem_dependencies {s : Symbol} {shape : Shape}
    : s ∈ shape.dependencies
      ↔ shape = .lookup s ∨ ∃ site ∈ shape.sites, s ∉ site.1 ∧ s ∈ site.2.dependencies := by
  cases shape <;>
    simp [Shape.dependencies, Shape.sites, Shape.parts, SymbolSet.mem_without,
      mem_dependenciesOfAll, mem_dependenciesOfPairs] <;> grind

/-- A node depends on a symbol just if somewhere in it the symbol is referred to or recorded, and
no binder on the way there takes the name. Witness: induction on the node.
-/
theorem Node.mem_dependencies_iff_holds {s : Symbol} {n : Node}
    : s ∈ n.dependencies
      ↔ ∃ names m, n.Holds names m ∧ s ∉ names ∧ (m.shape = .lookup s ∨ s ∈ m.recorded) := by
  induction n using Node.induction_parts with
  | step n ih =>
      rw [Node.mem_dependencies, Shape.mem_dependencies]
      constructor
      · rintro ((reference | ⟨⟨names, inner⟩, site, outside, depends⟩) | recorded)
        · exact ⟨[], n, .whole n, List.not_mem_nil, Or.inl reference⟩
        · obtain ⟨more, m, held, free, found⟩ := (ih inner (Shape.part_of_sites site)).mp depends
          refine ⟨names ++ more, m, .part site held, ?_, found⟩
          simp only [List.mem_append, not_or]
          exact ⟨outside, free⟩
        · exact ⟨[], n, .whole n, List.not_mem_nil, Or.inr recorded⟩
      · rintro ⟨names, m, held, free, found⟩
        cases held with
        | whole =>
            rcases found with reference | recorded
            · exact Or.inl (Or.inl reference)
            · exact Or.inr recorded
        | part site held =>
            simp only [List.mem_append, not_or] at free
            have depends := (ih _ (Shape.part_of_sites site)).mpr ⟨_, m, held, free.2, found⟩
            exact Or.inl (Or.inr ⟨_, site, free.1, depends⟩)

/-- A reference that is resolved in the context, being qualified or not bound by any binder around
it, is among the dependencies, as long as the binders take bare names only. A binder takes a
qualified name out of the dependencies too, although evaluation does not ask it for that name.
-/
theorem Node.Holds.mem_dependencies_of_lookup {n m : Node} {names : List Symbol} {s : Symbol}
    (held : n.Holds names m) (reference : m.shape = .lookup s)
    (asked : s.isQualified ∨ s ∉ names) (bare : ∀ t ∈ names, t.isQualified = false)
    : s ∈ n.dependencies := by
  have free : s ∉ names := by
    rcases asked with qualified | outside
    · intro member
      rw [bare s member] at qualified
      cases qualified
    · exact outside
  exact Node.mem_dependencies_iff_holds.mpr ⟨names, m, held, free, Or.inl reference⟩

/-- What a part of a node depends on, the node depends on, but for the names bound on the way. -/
theorem Node.Holds.mem_dependencies {n m : Node} {names : List Symbol} {s : Symbol}
    (held : n.Holds names m) (depends : s ∈ m.dependencies) (free : s ∉ names)
    : s ∈ n.dependencies := by
  induction held with
  | whole => exact depends
  | part site _ ih =>
      simp only [List.mem_append, not_or] at free
      rw [Node.mem_dependencies, Shape.mem_dependencies]
      exact Or.inl (Or.inr ⟨_, site, free.1, ih depends free.2⟩)

end IncrementalLisp
