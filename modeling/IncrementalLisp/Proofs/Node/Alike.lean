import IncrementalLisp.Node.Specialize
import IncrementalLisp.Proofs.Value.Bindings

/-! Alike nodes: they depend on the same names, and stay alike when alike values are put in for
their references. Neither makes a node depend on more than before.
-/

namespace IncrementalLisp

variable {M : Likeness}

-----------------------------------------------------------------------------------------
-- Dependencies
-----------------------------------------------------------------------------------------

/-- Pairs that are alike have the same names. Witness: induction on the pairs. -/
theorem PairsAlike.names_eq {ps ps' : List (Symbol × Node)} (alike : PairsAlike M ps ps')
    : ps'.map (·.1) = ps.map (·.1) := by
  induction ps generalizing ps' with
  | nil =>
      obtain rfl := alike
      rfl
  | cons pair rest ih =>
      obtain ⟨s, n⟩ := pair
      obtain ⟨n', others, rfl, _, last⟩ := alike
      simp [ih last]

mutual

/-- Alike nodes have the same dependencies. Witness: induction on the node. -/
theorem Node.Alike.dependencies_eq
    : ∀ {n n' : Node}, n.Alike M n' → n'.dependencies = n.dependencies
  | ⟨_, _, _, _⟩, ⟨_, _, _, _⟩, ⟨shape, recorded, _⟩ => by
      dsimp only at shape recorded
      rw [Node.dependencies, Node.dependencies, Shape.Alike.dependencies_eq shape, recorded]
termination_by structural n => n

/-- Shapes that are alike have the same dependencies, part by part. -/
theorem Shape.Alike.dependencies_eq
    : ∀ {s s' : Shape}, s.Alike M s' → s'.dependencies = s.dependencies
  | .constant _, _, ⟨_, same, _⟩ => by rw [same, Shape.dependencies, Shape.dependencies]
  | .lookup _, _, same => by rw [same]
  | .apply _ _, _, ⟨_, _, same, callee, args⟩ => by
      rw [same, Shape.dependencies, Shape.dependencies, Node.Alike.dependencies_eq callee,
        NodesAlike.dependencies_eq args]
  | .define _ _, _, ⟨_, same, expr⟩ => by
      rw [same, Shape.dependencies, Shape.dependencies, Node.Alike.dependencies_eq expr]
  | .sequence _, _, ⟨_, same, body⟩ => by
      rw [same, Shape.dependencies, Shape.dependencies, NodesAlike.dependencies_eq body]
  | .conditional _ _ _, _, ⟨_, _, _, same, test, yes, no⟩ => by
      rw [same, Shape.dependencies, Shape.dependencies, Node.Alike.dependencies_eq test,
        Node.Alike.dependencies_eq yes, Node.Alike.dependencies_eq no]
  | .binding _ _, _, ⟨_, _, same, pairs, body⟩ => by
      rw [same, Shape.dependencies, Shape.dependencies, PairsAlike.dependencies_eq pairs,
        Node.Alike.dependencies_eq body, PairsAlike.names_eq pairs]
  | .lambda _ _ _, _, ⟨_, same, body⟩ => by
      rw [same, Shape.dependencies, Shape.dependencies, Node.Alike.dependencies_eq body]
  | .expander _ _ _, _, ⟨_, same, body⟩ => by
      rw [same, Shape.dependencies, Shape.dependencies, Node.Alike.dependencies_eq body]
  | .quote _ _, _, ⟨_, same, _⟩ => by rw [same, Shape.dependencies, Shape.dependencies]
  | .vector _, _, ⟨_, same, items⟩ => by
      rw [same, Shape.dependencies, Shape.dependencies, NodesAlike.dependencies_eq items]
  | .list _, _, ⟨_, same, items⟩ => by
      rw [same, Shape.dependencies, Shape.dependencies, NodesAlike.dependencies_eq items]
  | .hashMap _, _, ⟨_, same, items⟩ => by
      rw [same, Shape.dependencies, Shape.dependencies, NodesAlike.dependencies_eq items]
  | .set _, _, ⟨_, same, items⟩ => by
      rw [same, Shape.dependencies, Shape.dependencies, NodesAlike.dependencies_eq items]
  | .invoke _ _ _, _, ⟨_, _, same, target, args⟩ => by
      rw [same, Shape.dependencies, Shape.dependencies, Node.Alike.dependencies_eq target,
        NodesAlike.dependencies_eq args]
  | .invokeStatic _ _ _, _, ⟨_, same, args⟩ => by
      rw [same, Shape.dependencies, Shape.dependencies, NodesAlike.dependencies_eq args]
  | .cast _ _, _, ⟨_, same, expr⟩ => by
      rw [same, Shape.dependencies, Shape.dependencies, Node.Alike.dependencies_eq expr]
  | .instanceOf _ _, _, ⟨_, _, same, type, expr⟩ => by
      rw [same, Shape.dependencies, Shape.dependencies, Node.Alike.dependencies_eq type,
        Node.Alike.dependencies_eq expr]
termination_by structural s => s

/-- So have nodes that are alike, one by one. -/
theorem NodesAlike.dependencies_eq
    : ∀ {ns ns' : List Node}, NodesAlike M ns ns' → dependenciesOfAll ns' = dependenciesOfAll ns
  | [], _, same => by rw [same]
  | _ :: _, _, ⟨_, _, same, first, rest⟩ => by
      rw [same, dependenciesOfAll, dependenciesOfAll, Node.Alike.dependencies_eq first,
        NodesAlike.dependencies_eq rest]
termination_by structural ns => ns

/-- So have pairs that are alike, one by one. -/
theorem PairsAlike.dependencies_eq
    : ∀ {ps ps' : List (Symbol × Node)},
        PairsAlike M ps ps' → dependenciesOfPairs ps' = dependenciesOfPairs ps
  | [], _, same => by rw [same]
  | (_, _) :: _, _, ⟨_, _, same, first, rest⟩ => by
      rw [same, dependenciesOfPairs, dependenciesOfPairs, Node.Alike.dependencies_eq first,
        PairsAlike.dependencies_eq rest]
termination_by structural ps => ps

end

/-- Of two alike nodes both are constants, of alike values, or neither is. -/
theorem Node.Alike.constant? {n n' : Node} (alike : n.Alike M n')
    : Option.Rel (Value.Alike M) n.constant? n'.constant? := by
  obtain ⟨shape, _, _, _⟩ := n
  obtain ⟨inner, _⟩ := alike
  unfold Node.constant?
  cases shape with
  | constant v =>
      obtain ⟨w, same, values⟩ := inner
      rw [same]
      exact .some values
  | _ =>
      dsimp only
      split
      · rename_i other
        rw [other] at inner
        simp [Shape.Alike] at inner
      · exact .none

-----------------------------------------------------------------------------------------
-- Substitution of alike values
-----------------------------------------------------------------------------------------

/-- Nodes that are alike stay so with one more dependency. -/
theorem Node.Alike.including {n n' : Node} (alike : n.Alike M n') (s : Symbol)
    : (n.including s).Alike M (n'.including s) := by
  have same := alike.dependencies_eq
  obtain ⟨shape, recorded, _, _⟩ := n
  obtain ⟨shape', recorded', _, _⟩ := n'
  obtain ⟨shapes, rfl, identities⟩ := alike
  unfold Node.including
  rw [same]
  split
  · exact ⟨shapes, rfl, identities⟩
  · exact ⟨shapes, rfl, M.reflexive _⟩

/-- Alike nodes at alike places. A node that is moved becomes a new one, whose identity is none. -/
theorem Node.Alike.locatedAt {n n' : Node} (alike : n.Alike M n') (place : Option Location)
    : (n.locatedAt place).Alike M (n'.locatedAt place) := by
  obtain ⟨shape, recorded, _, _⟩ := n
  obtain ⟨shape', recorded', _, _⟩ := n'
  cases place with
  | none => exact alike
  | some l => exact ⟨alike.1, alike.2.1, M.reflexive _⟩

/-- A constant has no identity yet, wherever it is put. -/
theorem Node.Alike.constant_locatedAt {v w : Value} (alike : v.Alike M w)
    (place place' : Option Location)
    : ((Node.constant v).locatedAt place).Alike M ((Node.constant w).locatedAt place') := by
  cases place <;> cases place' <;> exact ⟨⟨w, rfl, alike⟩, rfl, M.reflexive _⟩

/-- Nodes stay alike in the place of nodes that recorded the same. Witness: induction on what these
recorded.
-/
theorem Node.Alike.replacedBy {n n' r r' : Node} (same : n'.recorded = n.recorded)
    (alike : r.Alike M r')
    : (n.replacedBy r).Alike M (n'.replacedBy r') := by
  unfold Node.replacedBy
  rw [same]
  induction n.recorded.toList generalizing r r' with
  | nil => exact alike
  | cons s rest ih => exact ih (alike.including s)

/-- Options of alike nodes with alike defaults. -/
theorem getD_alike {n n' : Node} {o o' : Option Node} (alike : n.Alike M n')
    (options : Option.Rel (Node.Alike M) o o')
    : (o.getD n).Alike M (o'.getD n') := by
  cases options with
  | none => exact alike
  | some inner => exact inner

/-- Nodes are alike where they are changed as where they are not. -/
theorem nodes_getD_alike {ns ns' : List Node} {o o' : Option (List Node)}
    (alike : NodesAlike M ns ns') (options : Option.Rel (NodesAlike M) o o')
    : NodesAlike M (o.getD ns) (o'.getD ns') := by
  cases options with
  | none => exact alike
  | some inner => exact inner

/-- So are pairs. -/
theorem pairs_getD_alike {ps ps' : List (Symbol × Node)} {o o' : Option (List (Symbol × Node))}
    (alike : PairsAlike M ps ps') (options : Option.Rel (PairsAlike M) o o')
    : PairsAlike M (o.getD ps) (o'.getD ps') := by
  cases options with
  | none => exact alike
  | some inner => exact inner

/-- Changed lists of nodes are alike if their first nodes and the others are changed alike. -/
theorem consChanged_alike {n n' : Node} {ns ns' : List Node} {o o' : Option Node}
    {os os' : Option (List Node)} (first : n.Alike M n') (rest : NodesAlike M ns ns')
    (changed : Option.Rel (Node.Alike M) o o') (others : Option.Rel (NodesAlike M) os os')
    : Option.Rel (NodesAlike M) (consChanged n ns o os) (consChanged n' ns' o' os') := by
  have all := nodes_getD_alike rest others
  have head := getD_alike first changed
  cases changed <;> cases others <;> first | exact .none | exact .some ⟨_, _, rfl, head, all⟩

/-- So are changed lists of pairs. -/
theorem consChanged_pair_alike {s : Symbol} {n n' : Node} {ps ps' : List (Symbol × Node)}
    {o o' : Option Node} {os os' : Option (List (Symbol × Node))} (first : n.Alike M n')
    (rest : PairsAlike M ps ps') (changed : Option.Rel (Node.Alike M) o o')
    (others : Option.Rel (PairsAlike M) os os')
    : Option.Rel (PairsAlike M) (consChanged (s, n) ps (o.map (s, ·)) os)
        (consChanged (s, n') ps' (o'.map (s, ·)) os') := by
  have all := pairs_getD_alike rest others
  have head := getD_alike first changed
  cases changed <;> cases others <;> first | exact .none | exact .some ⟨_, _, rfl, head, all⟩

/-- Related options stay related under functions that keep the relation. -/
theorem map_rel {α β γ δ : Type} {r : α → β → Prop} {t : γ → δ → Prop} {f : α → γ} {g : β → δ}
    {o : Option α} {o' : Option β} (options : Option.Rel r o o')
    (keeps : ∀ {a b}, r a b → t (f a) (g b))
    : Option.Rel t (o.map f) (o'.map g) := by
  cases options with
  | none => exact .none
  | some inner => exact .some (keeps inner)

/-- Any node but a look-up is specialized by specializing its shape. -/
theorem Node.specialized?_of_ne_lookup {n : Node} (other : ∀ s, n.shape ≠ .lookup s)
    (b : Bindings)
    : n.specialized? b = (n.shape.specialized? b).map n.reshaped := by
  obtain ⟨shape, recorded, source, identity⟩ := n
  cases shape with
  | lookup s => exact absurd rfl (other s)
  | _ => rfl

/-- Only a reference is like a reference. -/
theorem Shape.Alike.ne_lookup {s s' : Shape} (alike : s.Alike M s')
    (other : ∀ name, s ≠ .lookup name)
    : ∀ name, s' ≠ .lookup name := by
  intro name same
  rw [same] at alike
  cases s with
  | lookup first => exact other first rfl
  | _ => simp [Shape.Alike] at alike

mutual

/-- Alike nodes under alike bindings both change, to alike nodes, or neither does. Witness:
induction on the node; the bound names are the same.
-/
theorem Node.Alike.specialized?
    : ∀ {n n' : Node} {b b' : Bindings}, n.Alike M n' → BindingsAlike M b b'
        → Option.Rel (Node.Alike M) (n.specialized? b) (n'.specialized? b')
  | ⟨shape, recorded, source, _⟩, ⟨shape', _, source', _⟩, b, b', ⟨same, records, _⟩, bindings => by
      dsimp only at same records
      have inner := Shape.Alike.specialized? same bindings
      by_cases reference : ∃ s, shape = .lookup s
      · obtain ⟨s, rfl⟩ := reference
        obtain rfl : shape' = .lookup s := same
        rw [Node.specialized?, Node.specialized?]
        apply map_rel (bindings.lexical? s)
        intro v v' values
        exact Node.Alike.replacedBy records (.constant_locatedAt values source source')
      · have other : ∀ s, shape ≠ .lookup s := fun s found => reference ⟨s, found⟩
        rw [Node.specialized?_of_ne_lookup other,
          Node.specialized?_of_ne_lookup (same.ne_lookup other)]
        apply map_rel inner
        intro t t' shapes
        exact ⟨shapes, records, M.reflexive _⟩
termination_by structural n => n

/-- Shapes that are alike are specialized alike, part by part. -/
theorem Shape.Alike.specialized?
    : ∀ {s s' : Shape} {b b' : Bindings}, s.Alike M s' → BindingsAlike M b b'
        → Option.Rel (Shape.Alike M) (s.specialized? b) (s'.specialized? b')
  | .constant _, _, _, _, ⟨_, same, _⟩, _ => by
      rw [same]
      exact .none
  | .lookup _, _, _, _, same, _ => by
      rw [same]
      exact .none
  | .apply f args, _, b, b', ⟨g, others, same, callee, alike⟩, bindings => by
      rw [same, Shape.specialized?, Shape.specialized?]
      have first := Node.Alike.specialized? callee bindings
      have rest := NodesAlike.specializedAll? alike bindings
      generalize f.specialized? b = o, g.specialized? b' = o',
        IncrementalLisp.specializedAll? args b = os,
        IncrementalLisp.specializedAll? others b' = os' at first rest ⊢
      have head := getD_alike callee first
      have all := nodes_getD_alike alike rest
      cases first <;> cases rest
      all_goals first | exact .none | exact .some ⟨_, _, rfl, head, all⟩
  | .define _ _, _, _, _, ⟨_, same, expr⟩, bindings => by
      rw [same, Shape.specialized?, Shape.specialized?]
      exact map_rel (Node.Alike.specialized? expr bindings) fun inner => ⟨_, rfl, inner⟩
  | .sequence _, _, _, _, ⟨_, same, body⟩, bindings => by
      rw [same, Shape.specialized?, Shape.specialized?]
      exact map_rel (NodesAlike.specializedAll? body bindings) fun inner => ⟨_, rfl, inner⟩
  | .conditional test yes no, _, b, b', ⟨test', yes', no', same, tests, yeses, noes⟩, bindings => by
      rw [same, Shape.specialized?, Shape.specialized?]
      have first := Node.Alike.specialized? tests bindings
      have second := Node.Alike.specialized? yeses bindings
      have third := Node.Alike.specialized? noes bindings
      generalize test.specialized? b = o, test'.specialized? b' = o', yes.specialized? b = p,
        yes'.specialized? b' = p', no.specialized? b = q, no'.specialized? b' = q'
        at first second third ⊢
      have head := getD_alike tests first
      have middle := getD_alike yeses second
      have last := getD_alike noes third
      cases first <;> cases second <;> cases third
      all_goals first | exact .none | exact .some ⟨_, _, _, rfl, head, middle, last⟩
  | .binding ps body, _, b, b', ⟨ps', body', same, pairs, bodies⟩, bindings => by
      rw [same, Shape.specialized?, Shape.specialized?, pairs.names_eq]
      have first := PairsAlike.specializedPairs? pairs bindings
      have second := Node.Alike.specialized? bodies (bindings.eraseAll (ps.map (·.1)))
      generalize IncrementalLisp.specializedPairs? ps b = o,
        IncrementalLisp.specializedPairs? ps' b' = o',
        body.specialized? (b.eraseAll (ps.map (·.1))) = p,
        body'.specialized? (b'.eraseAll (ps.map (·.1))) = p' at first second ⊢
      have all := pairs_getD_alike pairs first
      have inner := getD_alike bodies second
      cases first <;> cases second
      all_goals first | exact .none | exact .some ⟨_, _, rfl, all, inner⟩
  | .lambda _ _ _, _, _, _, ⟨_, same, body⟩, bindings => by
      rw [same, Shape.specialized?, Shape.specialized?]
      exact map_rel (Node.Alike.specialized? body (bindings.eraseAll _)) fun inner =>
        ⟨_, rfl, inner⟩
  | .expander _ _ _, _, _, _, ⟨_, same, body⟩, bindings => by
      rw [same, Shape.specialized?, Shape.specialized?]
      exact map_rel (Node.Alike.specialized? body (bindings.eraseAll _)) fun inner =>
        ⟨_, rfl, inner⟩
  | .quote _ _, _, _, _, ⟨_, same, _⟩, _ => by
      rw [same]
      exact .none
  | .vector _, _, _, _, ⟨_, same, items⟩, bindings => by
      rw [same, Shape.specialized?, Shape.specialized?]
      exact map_rel (NodesAlike.specializedAll? items bindings) fun inner => ⟨_, rfl, inner⟩
  | .list _, _, _, _, ⟨_, same, items⟩, bindings => by
      rw [same, Shape.specialized?, Shape.specialized?]
      exact map_rel (NodesAlike.specializedAll? items bindings) fun inner => ⟨_, rfl, inner⟩
  | .hashMap _, _, _, _, ⟨_, same, items⟩, bindings => by
      rw [same, Shape.specialized?, Shape.specialized?]
      exact map_rel (NodesAlike.specializedAll? items bindings) fun inner => ⟨_, rfl, inner⟩
  | .set _, _, _, _, ⟨_, same, items⟩, bindings => by
      rw [same, Shape.specialized?, Shape.specialized?]
      exact map_rel (NodesAlike.specializedAll? items bindings) fun inner => ⟨_, rfl, inner⟩
  | .invoke _ _ _, _, _, _, ⟨_, _, same, _, _⟩, _ => by
      rw [same]
      exact .none
  | .invokeStatic _ _ _, _, _, _, ⟨_, same, _⟩, _ => by
      rw [same]
      exact .none
  | .cast _ _, _, _, _, ⟨_, same, _⟩, _ => by
      rw [same]
      exact .none
  | .instanceOf _ _, _, _, _, ⟨_, _, same, _, _⟩, _ => by
      rw [same]
      exact .none
termination_by structural s => s

/-- So are nodes, one by one. -/
theorem NodesAlike.specializedAll?
    : ∀ {ns ns' : List Node} {b b' : Bindings}, NodesAlike M ns ns' → BindingsAlike M b b'
        → Option.Rel (NodesAlike M) (specializedAll? ns b) (specializedAll? ns' b')
  | [], _, _, _, same, _ => by
      rw [same]
      exact .none
  | _ :: _, _, _, _, ⟨_, _, same, first, rest⟩, bindings => by
      rw [same, IncrementalLisp.specializedAll?, IncrementalLisp.specializedAll?]
      exact consChanged_alike first rest (Node.Alike.specialized? first bindings)
        (NodesAlike.specializedAll? rest bindings)
termination_by structural ns => ns

/-- So are pairs, one by one. -/
theorem PairsAlike.specializedPairs?
    : ∀ {ps ps' : List (Symbol × Node)} {b b' : Bindings},
        PairsAlike M ps ps' → BindingsAlike M b b'
        → Option.Rel (PairsAlike M) (specializedPairs? ps b) (specializedPairs? ps' b')
  | [], _, _, _, same, _ => by
      rw [same]
      exact .none
  | (_, _) :: _, _, _, _, ⟨_, _, same, first, rest⟩, bindings => by
      rw [same, IncrementalLisp.specializedPairs?, IncrementalLisp.specializedPairs?]
      exact consChanged_pair_alike first rest (Node.Alike.specialized? first bindings)
        (PairsAlike.specializedPairs? rest bindings)
termination_by structural ps => ps

end

/-- Alike nodes with values for the references to alike bindings are alike. -/
theorem Node.Alike.specialized {n n' : Node} {b b' : Bindings} (alike : n.Alike M n')
    (bindings : BindingsAlike M b b')
    : (n.specialized b).Alike M (n'.specialized b') :=
  getD_alike alike (alike.specialized? bindings)

-----------------------------------------------------------------------------------------
-- Dependencies after substitution
-----------------------------------------------------------------------------------------

/-- (a.Within b) says that every name of the first set is in the second. -/
def SymbolSet.Within (a b : SymbolSet)
    : Prop :=
  ∀ s ∈ a, s ∈ b

/-- Unions are within unions of what the sets are within. -/
theorem SymbolSet.Within.union {a b a' b' : SymbolSet} (first : a.Within a') (second : b.Within b')
    : SymbolSet.Within (a ∪ b) (a' ∪ b') := by
  intro s member
  rw [Std.ExtTreeSet.mem_union_iff] at member ⊢
  exact member.imp (first s) (second s)

/-- Sets without some symbols are within what the sets are within, without them. -/
theorem SymbolSet.Within.without {a b : SymbolSet} (within : a.Within b) (names : List Symbol)
    : SymbolSet.Within (a.without names) (b.without names) := by
  intro s member
  rw [SymbolSet.mem_without] at member ⊢
  exact ⟨within s member.1, member.2⟩

/-- A set is within itself. -/
theorem SymbolSet.Within.refl (a : SymbolSet)
    : a.Within a :=
  fun _ member => member

/-- A node depends on what its shape depends on and on what is recorded. -/
theorem Node.mem_dependencies {n : Node} {s : Symbol}
    : s ∈ n.dependencies ↔ s ∈ n.shape.dependencies ∨ s ∈ n.recorded := by
  obtain ⟨shape, recorded, _, _⟩ := n
  rw [Node.dependencies, Std.ExtTreeSet.mem_union_iff]

/-- A node with one more dependency depends on nothing besides it and its own. -/
theorem Node.including_within {n : Node} {s d : Symbol} (member : d ∈ (n.including s).dependencies)
    : d = s ∨ d ∈ n.dependencies := by
  unfold Node.including at member
  split at member
  · exact Or.inr member
  · rw [Node.mem_dependencies] at member
    rcases member with inner | recorded
    · exact Or.inr (Node.mem_dependencies.mpr (Or.inl inner))
    · rw [Std.ExtTreeSet.mem_insert, Std.LawfulEqCmp.compare_eq_iff_eq] at recorded
      rcases recorded with same | old
      · exact Or.inl same.symm
      · exact Or.inr (Node.mem_dependencies.mpr (Or.inr old))

/-- A node in the place of another depends on what it did and on what was recorded there. -/
theorem Node.replacedBy_within {n r : Node} {d : Symbol}
    (member : d ∈ (n.replacedBy r).dependencies)
    : d ∈ n.recorded ∨ d ∈ r.dependencies := by
  unfold Node.replacedBy at member
  rw [← Std.ExtTreeSet.mem_toList]
  generalize n.recorded.toList = names at member ⊢
  induction names generalizing r with
  | nil => exact Or.inr member
  | cons s rest ih =>
      rcases ih member with later | earlier
      · exact Or.inl (List.mem_cons_of_mem s later)
      · rcases Node.including_within earlier with rfl | inner
        · exact Or.inl List.mem_cons_self
        · exact Or.inr inner

/-- A constant has no dependencies, wherever it stands. -/
theorem Node.dependencies_constant_locatedAt (v : Value) (place : Option Location)
    : ((Node.constant v).locatedAt place).dependencies = ∅ := by
  cases place <;> rfl

/-- A node that may be changed depends on no more if the changed one does not. -/
theorem getD_within {n : Node} {o : Option Node}
    (inner : ∀ {n'}, o = some n' → n'.dependencies.Within n.dependencies)
    : (o.getD n).dependencies.Within n.dependencies := by
  cases o with
  | none => exact SymbolSet.Within.refl _
  | some n' => exact inner rfl

/-- Neither do several nodes that may be changed. -/
theorem nodes_getD_within {ns : List Node} {o : Option (List Node)}
    (inner : ∀ {ns'}, o = some ns'
      → SymbolSet.Within (dependenciesOfAll ns') (dependenciesOfAll ns))
    : SymbolSet.Within (dependenciesOfAll (o.getD ns)) (dependenciesOfAll ns) := by
  cases o with
  | none => exact SymbolSet.Within.refl _
  | some ns' => exact inner rfl

/-- Neither do pairs that may be changed, whose names stay. -/
theorem pairs_getD_within {ps : List (Symbol × Node)} {o : Option (List (Symbol × Node))}
    (inner : ∀ {ps'}, o = some ps'
      → ps'.map (·.1) = ps.map (·.1)
        ∧ SymbolSet.Within (dependenciesOfPairs ps') (dependenciesOfPairs ps))
    : (o.getD ps).map (·.1) = ps.map (·.1)
      ∧ SymbolSet.Within (dependenciesOfPairs (o.getD ps)) (dependenciesOfPairs ps) := by
  cases o with
  | none => exact ⟨rfl, SymbolSet.Within.refl _⟩
  | some ps' => exact inner rfl

/-- What became of a list whose first item or rest changed. -/
theorem consChanged_eq_some {α : Type} {item : α} {rest changed : List α} {item? : Option α}
    {rest? : Option (List α)} (step : consChanged item rest item? rest? = some changed)
    : changed = item?.getD item :: rest?.getD rest := by
  unfold consChanged at step
  split at step
  · cases step
  · exact (Option.some.inj step).symm

mutual

/-- Substitution leaves a node without new dependencies. Witness: induction on the node. -/
theorem Node.specialized?_within
    : ∀ {n n' : Node} {b : Bindings}, n.specialized? b = some n'
        → n'.dependencies.Within n.dependencies
  | ⟨shape, recorded, source, identity⟩, n', b, changed => by
      by_cases reference : ∃ s, shape = .lookup s
      · obtain ⟨s, rfl⟩ := reference
        rw [Node.specialized?, Option.map_eq_some_iff] at changed
        obtain ⟨v, _, rfl⟩ := changed
        intro d member
        rcases Node.replacedBy_within member with old | new
        · exact Node.mem_dependencies.mpr (Or.inr old)
        · rw [Node.dependencies_constant_locatedAt] at new
          exact absurd new Std.ExtTreeSet.not_mem_empty
      · have other : ∀ s, shape ≠ .lookup s := fun s found => reference ⟨s, found⟩
        rw [Node.specialized?_of_ne_lookup other, Option.map_eq_some_iff] at changed
        obtain ⟨shape', inner, rfl⟩ := changed
        have within := Shape.specialized?_within inner
        rw [Node.reshaped, Node.dependencies, Node.dependencies]
        exact within.union (SymbolSet.Within.refl _)
termination_by structural n => n

/-- A specialized shape depends on no more than the shape, part by part. -/
theorem Shape.specialized?_within
    : ∀ {s s' : Shape} {b : Bindings}, s.specialized? b = some s'
        → s'.dependencies.Within s.dependencies
  | .constant _, _, _, changed | .lookup _, _, _, changed | .quote _ _, _, _, changed
  | .invoke _ _ _, _, _, changed | .invokeStatic _ _ _, _, _, changed | .cast _ _, _, _, changed
  | .instanceOf _ _, _, _, changed => by cases changed
  | .apply f args, _, b, changed => by
      have callee : ((f.specialized? b).getD f).dependencies.Within f.dependencies :=
        getD_within Node.specialized?_within
      have rest : SymbolSet.Within (dependenciesOfAll ((specializedAll? args b).getD args))
          (dependenciesOfAll args) := nodes_getD_within specializedAll?_within
      rw [Shape.specialized?] at changed
      split at changed
      · cases changed
      · obtain rfl := Option.some.inj changed
        rw [Shape.dependencies, Shape.dependencies]
        exact callee.union rest
  | .conditional test yes no, _, b, changed => by
      have first : ((test.specialized? b).getD test).dependencies.Within test.dependencies :=
        getD_within Node.specialized?_within
      have second : ((yes.specialized? b).getD yes).dependencies.Within yes.dependencies :=
        getD_within Node.specialized?_within
      have third : ((no.specialized? b).getD no).dependencies.Within no.dependencies :=
        getD_within Node.specialized?_within
      rw [Shape.specialized?] at changed
      split at changed
      · cases changed
      · obtain rfl := Option.some.inj changed
        rw [Shape.dependencies, Shape.dependencies]
        exact (first.union second).union third
  | .binding pairs body, _, b, changed => by
      have ⟨names, exprs⟩ : ((specializedPairs? pairs b).getD pairs).map (·.1) = pairs.map (·.1)
          ∧ SymbolSet.Within (dependenciesOfPairs ((specializedPairs? pairs b).getD pairs))
            (dependenciesOfPairs pairs) := pairs_getD_within specializedPairs?_within
      have inner : ((body.specialized? (b.eraseAll (pairs.map (·.1)))).getD body).dependencies.Within
          body.dependencies := getD_within Node.specialized?_within
      rw [Shape.specialized?] at changed
      split at changed
      · cases changed
      · obtain rfl := Option.some.inj changed
        rw [Shape.dependencies, Shape.dependencies, names]
        exact exprs.union (inner.without _)
  | .define _ _, _, _, changed => by
      rw [Shape.specialized?, Option.map_eq_some_iff] at changed
      obtain ⟨_, inner, rfl⟩ := changed
      rw [Shape.dependencies, Shape.dependencies]
      exact Node.specialized?_within inner
  | .sequence _, _, _, changed => by
      rw [Shape.specialized?, Option.map_eq_some_iff] at changed
      obtain ⟨_, inner, rfl⟩ := changed
      rw [Shape.dependencies, Shape.dependencies]
      exact specializedAll?_within inner
  | .lambda _ _ _, _, _, changed => by
      rw [Shape.specialized?, Option.map_eq_some_iff] at changed
      obtain ⟨_, inner, rfl⟩ := changed
      rw [Shape.dependencies, Shape.dependencies]
      exact (Node.specialized?_within inner).without _
  | .expander _ _ _, _, _, changed => by
      rw [Shape.specialized?, Option.map_eq_some_iff] at changed
      obtain ⟨_, inner, rfl⟩ := changed
      rw [Shape.dependencies, Shape.dependencies]
      exact (Node.specialized?_within inner).without _
  | .vector _, _, _, changed => by
      rw [Shape.specialized?, Option.map_eq_some_iff] at changed
      obtain ⟨_, inner, rfl⟩ := changed
      rw [Shape.dependencies, Shape.dependencies]
      exact specializedAll?_within inner
  | .list _, _, _, changed => by
      rw [Shape.specialized?, Option.map_eq_some_iff] at changed
      obtain ⟨_, inner, rfl⟩ := changed
      rw [Shape.dependencies, Shape.dependencies]
      exact specializedAll?_within inner
  | .hashMap _, _, _, changed => by
      rw [Shape.specialized?, Option.map_eq_some_iff] at changed
      obtain ⟨_, inner, rfl⟩ := changed
      rw [Shape.dependencies, Shape.dependencies]
      exact specializedAll?_within inner
  | .set _, _, _, changed => by
      rw [Shape.specialized?, Option.map_eq_some_iff] at changed
      obtain ⟨_, inner, rfl⟩ := changed
      rw [Shape.dependencies, Shape.dependencies]
      exact specializedAll?_within inner
termination_by structural s => s

/-- Neither do specialized nodes, by the first and the others. -/
theorem specializedAll?_within
    : ∀ {ns ns' : List Node} {b : Bindings}, specializedAll? ns b = some ns'
        → SymbolSet.Within (dependenciesOfAll ns') (dependenciesOfAll ns)
  | [], _, _, changed => by cases changed
  | n :: rest, _, b, changed => by
      have first : ((n.specialized? b).getD n).dependencies.Within n.dependencies :=
        getD_within Node.specialized?_within
      have others : SymbolSet.Within (dependenciesOfAll ((specializedAll? rest b).getD rest))
          (dependenciesOfAll rest) := nodes_getD_within specializedAll?_within
      rw [specializedAll?] at changed
      rw [consChanged_eq_some changed, dependenciesOfAll, dependenciesOfAll]
      exact first.union others
termination_by structural ns => ns

/-- Neither do specialized pairs, whose names stay. -/
theorem specializedPairs?_within
    : ∀ {ps ps' : List (Symbol × Node)} {b : Bindings}, specializedPairs? ps b = some ps'
        → ps'.map (·.1) = ps.map (·.1)
          ∧ SymbolSet.Within (dependenciesOfPairs ps') (dependenciesOfPairs ps)
  | [], _, _, changed => by cases changed
  | (s, n) :: rest, _, b, changed => by
      have first : ((n.specialized? b).getD n).dependencies.Within n.dependencies :=
        getD_within Node.specialized?_within
      have ⟨names, others⟩ : ((specializedPairs? rest b).getD rest).map (·.1) = rest.map (·.1)
          ∧ SymbolSet.Within (dependenciesOfPairs ((specializedPairs? rest b).getD rest))
            (dependenciesOfPairs rest) := pairs_getD_within specializedPairs?_within
      have head : ((n.specialized? b).map (s, ·)).getD (s, n) = (s, (n.specialized? b).getD n) := by
        cases n.specialized? b <;> rfl
      rw [specializedPairs?] at changed
      rw [consChanged_eq_some changed, head, List.map_cons, List.map_cons, names,
        dependenciesOfPairs, dependenciesOfPairs]
      exact ⟨rfl, first.union others⟩
termination_by structural ps => ps

end

/-- A specialized node depends on no more than the node, changed or not. -/
theorem Node.specialized_within (n : Node) (b : Bindings)
    : (n.specialized b).dependencies.Within n.dependencies :=
  getD_within Node.specialized?_within

end IncrementalLisp
