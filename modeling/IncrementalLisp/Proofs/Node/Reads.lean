import IncrementalLisp.Proofs.Node.Rewritten

/-! The lexical names that a program reads: those it refers to without a binder on the way that
takes them. Recorded dependencies do not count, and neither do qualified symbols, which are never
resolved lexically. Of its bindings the evaluation of a node reads these names and no others, and
once values are put in for them, none of them is read any more outside of host operations.
-/

namespace IncrementalLisp

mutual

/-- Whether a node reads a lexical name. -/
def Node.reads : Node → Symbol → Bool
  | ⟨shape, _, _, _⟩, s => shape.reads s
termination_by structural n => n

/-- Whether a shape reads a lexical name. Names bound by a shape are not read from outside. -/
def Shape.reads : Shape → Symbol → Bool
  | .constant _, _ => false
  | .lookup name, s => name == s && !s.isQualified
  | .apply f args, s => f.reads s || anyReads args s
  | .define _ expr, s => expr.reads s
  | .sequence body, s => anyReads body s
  | .conditional test yes no, s => test.reads s || yes.reads s || no.reads s
  | .binding pairs body, s =>
      pairsRead pairs s || !(pairs.map (·.1)).contains s && body.reads s
  | .lambda params rest body, s => !(params ++ rest.toList).contains s && body.reads s
  | .expander continuation params body, s =>
      !(params ++ [continuation]).contains s && body.reads s
  | .quote _ _, _ => false
  | .vector items, s => anyReads items s
  | .list items, s => anyReads items s
  | .hashMap items, s => anyReads items s
  | .set items, s => anyReads items s
  | .invoke target _ args, s => target.reads s || anyReads args s
  | .invokeStatic _ _ args, s => anyReads args s
  | .cast _ expr, s => expr.reads s
  | .instanceOf type expr, s => type.reads s || expr.reads s
termination_by structural s => s

/-- Whether one of several nodes reads a lexical name. -/
def anyReads : List Node → Symbol → Bool
  | [], _ => false
  | n :: rest, s => n.reads s || anyReads rest s
termination_by structural ns => ns

/-- Whether one of the expressions in a list of bindings reads a lexical name. -/
def pairsRead : List (Symbol × Node) → Symbol → Bool
  | [], _ => false
  | (_, n) :: rest, s => n.reads s || pairsRead rest s
termination_by structural ps => ps

end

/-- A node reads what its shape reads. -/
theorem Node.reads_eq (n : Node) (s : Symbol)
    : n.reads s = n.shape.reads s := by
  cases n
  rfl

/-- Several nodes read what one of them reads. Witness: induction on the nodes. -/
theorem anyReads_iff {nodes : List Node} {s : Symbol}
    : anyReads nodes s = true ↔ ∃ n ∈ nodes, n.reads s = true := by
  induction nodes with
  | nil => simp [anyReads]
  | cons n rest ih => simp [anyReads, ih]

/-- So do pairs. Witness: induction on the pairs. -/
theorem pairsRead_iff {pairs : List (Symbol × Node)} {s : Symbol}
    : pairsRead pairs s = true ↔ ∃ pair ∈ pairs, pair.2.reads s = true := by
  induction pairs with
  | nil => simp [pairsRead]
  | cons pair rest ih => simp [pairsRead, ih]

/-- A shape reads the bare name that it is itself, and what its parts read, but for the names that
it binds in them.
-/
theorem Shape.reads_iff {shape : Shape} {s : Symbol}
    : shape.reads s = true
      ↔ shape = .lookup s ∧ s.isQualified = false
        ∨ ∃ site ∈ shape.sites, s ∉ site.1 ∧ site.2.reads s = true := by
  cases shape <;>
    simp [Shape.reads, Shape.sites, Shape.parts, anyReads_iff, pairsRead_iff] <;> grind

/-- What a part of a node reads, the node reads, but for the names bound there. -/
theorem Node.reads_of_site {n part : Node} {names : List Symbol} {s : Symbol}
    (site : (names, part) ∈ n.shape.sites) (outside : s ∉ names) (reads : part.reads s = true)
    : n.reads s = true := by
  rw [Node.reads_eq, Shape.reads_iff]
  exact Or.inr ⟨_, site, outside, reads⟩

/-- The names that a node reads are bare. Witness: induction on the node. -/
theorem Node.bare_of_reads {n : Node} {s : Symbol} (reads : n.reads s = true)
    : s.isQualified = false := by
  induction n using Node.induction_parts with
  | step n ih =>
      rw [Node.reads_eq, Shape.reads_iff] at reads
      rcases reads with ⟨-, bare⟩ | ⟨site, member, -, below⟩
      · exact bare
      · exact ih site.2 (Shape.part_of_sites member) below

-----------------------------------------------------------------------------------------
-- Specialization
-----------------------------------------------------------------------------------------

/-- Substitution lets a node read nothing new. Witness: induction on the node. -/
theorem Node.reads_of_specialized {n : Node} {b : Bindings} {s : Symbol}
    (reads : (n.specialized b).reads s = true)
    : n.reads s = true := by
  induction n using Node.induction_parts generalizing b with
  | step n ih =>
      by_cases reference : ∃ t, n.shape = .lookup t
      · obtain ⟨shape, own, source, identity⟩ := n
        obtain ⟨t, rfl⟩ := reference
        cases bound : b.lexical? t with
        | none => rwa [Node.specialized_lookup_of_none bound] at reads
        | some v =>
            rw [Node.specialized_lookup_of_some bound, Node.reads_eq, Node.shape_replacedBy,
              Node.shape_locatedAt] at reads
            cases reads
      · have other := not_exists.mp reference
        rw [Node.reads_eq, Node.shape_specialized other] at reads
        cases host : n.shape.asksHost with
        | true => rwa [Shape.specialized_of_asksHost host, ← Node.reads_eq] at reads
        | false =>
            rcases Shape.reads_iff.mp reads with ⟨named, _⟩ | ⟨site, member, outside, below⟩
            · exact absurd named (Shape.specialized_ne_lookup other b s)
            · rw [Shape.sites_specialized host, List.mem_map] at member
              obtain ⟨⟨names, part⟩, site, rfl⟩ := member
              exact Node.reads_of_site site outside (ih part (Shape.part_of_sites site) below)

/-- (n.AsksNoHost) says that no node in the node, at any depth, is a host operation. -/
def Node.AsksNoHost (n : Node)
    : Prop :=
  ∀ names m, n.Holds names m → m.shape.asksHost = false

/-- A node asks no host if neither its shape nor a node at one of its sites does. -/
theorem Node.AsksNoHost.of_parts {n : Node} (here : n.shape.asksHost = false)
    (parts : ∀ site ∈ n.shape.sites, site.2.AsksNoHost)
    : n.AsksNoHost := by
  intro names m held
  cases held with
  | whole => exact here
  | part site held => exact parts _ site _ m held

/-- A part of a node that asks no host asks none, since what it holds the node holds. -/
theorem Node.AsksNoHost.part {n part : Node} {names : List Symbol} (asks : n.AsksNoHost)
    (site : (names, part) ∈ n.shape.sites)
    : part.AsksNoHost :=
  fun _ m held => asks _ m (.part site held)

/-- Substitution is complete: a node without host operations reads none of the names any more that
have a value. Witness: induction on the node; a name bound at a site is not read there.
-/
theorem Node.reads_specialized_of_bound {n : Node} (asks : n.AsksNoHost) {b : Bindings} {s : Symbol}
    {v : Value} (bound : b.lexical? s = some v)
    : (n.specialized b).reads s = false := by
  induction n using Node.induction_parts generalizing b with
  | step n ih =>
      rw [← Bool.not_eq_true]
      intro reads
      by_cases reference : ∃ t, n.shape = .lookup t
      · obtain ⟨shape, own, source, identity⟩ := n
        obtain ⟨t, rfl⟩ := reference
        cases known : b.lexical? t with
        | none =>
            rw [Node.specialized_lookup_of_none known, Node.reads_eq, Shape.reads] at reads
            obtain rfl : t = s := by simp_all
            rw [known] at bound
            cases bound
        | some w =>
            rw [Node.specialized_lookup_of_some known, Node.reads_eq, Node.shape_replacedBy,
              Node.shape_locatedAt] at reads
            cases reads
      · have other := not_exists.mp reference
        rw [Node.reads_eq, Node.shape_specialized other] at reads
        rcases Shape.reads_iff.mp reads with ⟨named, _⟩ | ⟨site, member, outside, below⟩
        · exact Shape.specialized_ne_lookup other b s named
        · rw [Shape.sites_specialized (asks [] n (.whole n)), List.mem_map] at member
          obtain ⟨⟨names, part⟩, site, rfl⟩ := member
          have inner : (b.eraseAll names).lexical? s = some v := by
            unfold Bindings.lexical? at bound ⊢
            rw [Bindings.get?_eraseAll, if_neg outside]
            exact bound
          rw [ih part (Shape.part_of_sites site) (asks.part site) inner] at below
          cases below

end IncrementalLisp
