import IncrementalLisp.Node.Specialize

/-! The law of composition of specialization: to put the values of some names into a node and then
those of more names is to put in the latter at once. The names bound inside of a node are taken
out of both bindings alike.
-/

namespace IncrementalLisp

-----------------------------------------------------------------------------------------
-- Bindings of more names
-----------------------------------------------------------------------------------------

/-- (b.Within more) says that the second bindings give every name of the first the same value. -/
def Bindings.Within (b more : Bindings)
    : Prop :=
  ∀ s v, b.get? s = some v → more.get? s = some v

namespace Bindings

variable {b more : Bindings}

/-- Bindings are within themselves. -/
theorem Within.refl (b : Bindings)
    : b.Within b :=
  fun _ _ known => known

/-- A lexical value is the same in bindings that hold more. -/
theorem Within.lexical? (within : b.Within more) {s : Symbol} {v : Value}
    (known : b.lexical? s = some v)
    : more.lexical? s = some v := by
  unfold Bindings.lexical? at known ⊢
  split at known
  · cases known
  · rename_i bare
    rw [if_neg bare]
    exact within s v known

/-- Bindings stay within others when the same names are erased from both. -/
theorem Within.eraseAll (within : b.Within more) (names : List Symbol)
    : (b.eraseAll names).Within (more.eraseAll names) := by
  intro s v known
  rw [get?_eraseAll] at known ⊢
  split at known
  · cases known
  · rename_i outside
    rw [if_neg outside]
    exact within s v known

end Bindings

-----------------------------------------------------------------------------------------
-- Specialized parts
-----------------------------------------------------------------------------------------

/-- Several nodes with values for the references to bound names. -/
def specializedAll (nodes : List Node) (b : Bindings)
    : List Node :=
  nodes.map (·.specialized b)

/-- A list of bindings with values for the references to bound names in its expressions. -/
def specializedPairs (pairs : List (Symbol × Node)) (b : Bindings)
    : List (Symbol × Node) :=
  pairs.map fun (s, n) => (s, n.specialized b)

/-- Specialized nodes, changed or not, are each specialized. Witness: induction on the nodes. -/
theorem specializedAll?_getD (nodes : List Node) (b : Bindings)
    : (specializedAll? nodes b).getD nodes = specializedAll nodes b := by
  induction nodes with
  | nil => rfl
  | cons n rest ih =>
      have step : specializedAll (n :: rest) b = n.specialized b :: specializedAll rest b := rfl
      rw [specializedAll?, step, ← ih]
      unfold Node.specialized
      cases n.specialized? b <;> cases specializedAll? rest b <;> rfl

/-- So are the expressions of specialized pairs. Witness: induction on the pairs. -/
theorem specializedPairs?_getD (pairs : List (Symbol × Node)) (b : Bindings)
    : (specializedPairs? pairs b).getD pairs = specializedPairs pairs b := by
  induction pairs with
  | nil => rfl
  | cons pair rest ih =>
      obtain ⟨s, n⟩ := pair
      have step
          : specializedPairs ((s, n) :: rest) b = (s, n.specialized b) :: specializedPairs rest b :=
        rfl
      rw [specializedPairs?, step, ← ih]
      unfold Node.specialized
      cases n.specialized? b <;> cases specializedPairs? rest b <;> rfl

/-- Specialized pairs have the names that they had. -/
theorem names_specializedPairs (pairs : List (Symbol × Node)) (b : Bindings)
    : (specializedPairs pairs b).map (·.1) = pairs.map (·.1) := by
  simp [specializedPairs]

/-- A shape with values for the references to bound names in its parts. -/
def Shape.specialized (s : Shape) (b : Bindings)
    : Shape :=
  match s with
  | .apply f args => .apply (f.specialized b) (specializedAll args b)
  | .define s expr => .define s (expr.specialized b)
  | .sequence body => .sequence (specializedAll body b)
  | .conditional test yes no =>
      .conditional (test.specialized b) (yes.specialized b) (no.specialized b)
  | .binding pairs body =>
      .binding (specializedPairs pairs b) (body.specialized (b.eraseAll (pairs.map (·.1))))
  | .lambda params rest body =>
      .lambda params rest (body.specialized (b.eraseAll (params ++ rest.toList)))
  | .expander continuation params body =>
      .expander continuation params (body.specialized (b.eraseAll (params ++ [continuation])))
  | .vector items => .vector (specializedAll items b)
  | .list items => .list (specializedAll items b)
  | .hashMap items => .hashMap (specializedAll items b)
  | .set items => .set (specializedAll items b)
  | other => other

/-- The shape with values for references, whether or not there are any. -/
theorem Shape.specialized?_getD (s : Shape) (b : Bindings)
    : (s.specialized? b).getD s = s.specialized b := by
  cases s with
  | constant | lookup | quote | invoke | invokeStatic | cast | instanceOf => rfl
  | define | lambda | expander =>
      rw [Shape.specialized?, Option.getD_map]
      rfl
  | sequence | vector | list | hashMap | set =>
      rw [Shape.specialized?, Option.getD_map, specializedAll?_getD]
      rfl
  | apply f args =>
      rw [Shape.specialized?]
      dsimp only [Shape.specialized, Node.specialized]
      rw [← specializedAll?_getD]
      cases f.specialized? b <;> cases specializedAll? args b <;> rfl
  | conditional test yes no =>
      rw [Shape.specialized?]
      dsimp only [Shape.specialized, Node.specialized]
      cases test.specialized? b <;> cases yes.specialized? b <;> cases no.specialized? b <;> rfl
  | binding pairs body =>
      rw [Shape.specialized?]
      dsimp only [Shape.specialized, Node.specialized]
      rw [← specializedPairs?_getD]
      cases specializedPairs? pairs b <;> cases body.specialized? (b.eraseAll (pairs.map (·.1)))
        <;> rfl

-----------------------------------------------------------------------------------------
-- Specialized nodes
-----------------------------------------------------------------------------------------

/-- A look-up of a symbol without a lexical value is left alone. -/
theorem Node.specialized_lookup_of_none {s : Symbol} {recorded : SymbolSet}
    {source : Option Location} {identity : Option Identity} {b : Bindings}
    (unbound : b.lexical? s = none)
    : (Node.mk (.lookup s) recorded source identity).specialized b
      = ⟨.lookup s, recorded, source, identity⟩ := by
  unfold Node.specialized
  rw [Node.specialized?, unbound]
  rfl

/-- The constant in the place of a reference to a bound name. -/
theorem Node.specialized_lookup_of_some {s : Symbol} {recorded : SymbolSet}
    {source : Option Location} {identity : Option Identity} {b : Bindings} {v : Value}
    (bound : b.lexical? s = some v)
    : (Node.mk (.lookup s) recorded source identity).specialized b
      = (Node.mk (.lookup s) recorded source identity).replacedBy
          ((Node.constant v).locatedAt source) := by
  unfold Node.specialized
  rw [Node.specialized?, bound]
  rfl

/-- One more dependency leaves the shape alone. -/
theorem Node.shape_including (n : Node) (s : Symbol)
    : (n.including s).shape = n.shape := by
  unfold Node.including
  split <;> rfl

/-- So does a place. -/
theorem Node.shape_locatedAt (n : Node) (place : Option Location)
    : (n.locatedAt place).shape = n.shape := by
  cases place <;> rfl

/-- A node in the place of another one has its own shape. Witness: induction on what the other one
recorded.
-/
theorem Node.shape_replacedBy (n r : Node)
    : (n.replacedBy r).shape = r.shape := by
  unfold Node.replacedBy
  induction n.recorded.toList generalizing r with
  | nil => rfl
  | cons s rest ih =>
      rw [List.foldl_cons, ih, Node.shape_including]

/-- A constant is left alone by specialization. -/
theorem Node.specialized_constant {n : Node} {v : Value} (constant : n.shape = .constant v)
    (b : Bindings)
    : n.specialized b = n := by
  obtain ⟨shape, recorded, source, identity⟩ := n
  obtain rfl := constant
  rfl

/-- A node that is no reference is changed by way of its shape, and becomes a new node then. -/
theorem Node.specialized_of_ne_lookup {n : Node} (other : ∀ s, n.shape ≠ .lookup s) (b : Bindings)
    : n.specialized b
      = if (n.shape.specialized? b).isSome then n.reshaped (n.shape.specialized b) else n := by
  obtain ⟨shape, recorded, source, identity⟩ := n
  have changes : (Node.mk shape recorded source identity).specialized? b
      = (shape.specialized? b).map (Node.mk shape recorded source identity).reshaped := by
    cases shape with
    | lookup s => exact absurd rfl (other s)
    | _ => rfl
  dsimp only
  rw [Node.specialized, changes, ← Shape.specialized?_getD]
  cases shape.specialized? b <;> rfl

/-- A shape that does not change is specialized to itself. -/
theorem Shape.specialized_of_unchanged {s : Shape} {b : Bindings}
    (unchanged : (s.specialized? b).isSome = false)
    : s.specialized b = s := by
  rw [Option.isSome_eq_false_iff, Option.isNone_iff_eq_none] at unchanged
  rw [← Shape.specialized?_getD, unchanged]
  rfl

/-- Any node but a look-up has its shape specialized. -/
theorem Node.shape_specialized {n : Node} (other : ∀ s, n.shape ≠ .lookup s) (b : Bindings)
    : (n.specialized b).shape = n.shape.specialized b := by
  rw [Node.specialized_of_ne_lookup other]
  cases changed : (n.shape.specialized? b).isSome with
  | true => rfl
  | false => exact (Shape.specialized_of_unchanged changed).symm

/-- Specialization turns nothing into a reference. -/
theorem Shape.specialized_ne_lookup {s : Shape} (other : ∀ name, s ≠ .lookup name) (b : Bindings)
    : ∀ name, s.specialized b ≠ .lookup name := by
  intro name
  cases s with
  | lookup t => exact absurd rfl (other t)
  | _ => simp [Shape.specialized]

-----------------------------------------------------------------------------------------
-- More bindings change more
-----------------------------------------------------------------------------------------

/-- A list changes if its first item or one of the others does. -/
theorem isSome_consChanged {α : Type} (item : α) (rest : List α) (item? : Option α)
    (rest? : Option (List α))
    : (consChanged item rest item? rest?).isSome = (item?.isSome || rest?.isSome) := by
  cases item? <;> cases rest? <;> rfl

mutual

/-- What the values of some names change, those of more names change. Witness: induction on the
node.
-/
theorem Node.specialized?_isSome_mono
    : ∀ {n : Node} {b more : Bindings}, b.Within more → (n.specialized? b).isSome
        → (n.specialized? more).isSome
  | ⟨shape, recorded, source, identity⟩, b, more, within, changed => by
      cases shape with
      | lookup s =>
          rw [Node.specialized?, Option.isSome_map] at changed ⊢
          obtain ⟨v, bound⟩ := Option.isSome_iff_exists.mp changed
          rw [within.lexical? bound]
          rfl
      | _ =>
          rw [Node.specialized?, Option.isSome_map] at changed ⊢
          · exact Shape.specialized?_isSome_mono within changed
          all_goals exact nofun
termination_by structural n => n

/-- A shape that changes under some bindings changes under more, part by part. -/
theorem Shape.specialized?_isSome_mono
    : ∀ {s : Shape} {b more : Bindings}, b.Within more → (s.specialized? b).isSome
        → (s.specialized? more).isSome
  | .constant _, _, _, _, changed | .lookup _, _, _, _, changed | .quote _ _, _, _, _, changed
  | .invoke _ _ _, _, _, _, changed | .invokeStatic _ _ _, _, _, _, changed
  | .cast _ _, _, _, _, changed | .instanceOf _ _, _, _, _, changed => by
      simp [Shape.specialized?] at changed
  | .apply f args, b, more, within, changed => by
      have first := Node.specialized?_isSome_mono (n := f) within
      have rest : (specializedAll? args b).isSome → (specializedAll? args more).isSome :=
        specializedAll?_isSome_mono within
      rw [Shape.specialized?] at changed ⊢
      generalize f.specialized? b = o, f.specialized? more = o', specializedAll? args b = os,
        specializedAll? args more = os' at first rest changed ⊢
      cases o <;> cases o' <;> cases os <;> cases os' <;> simp_all
  | .define _ expr, b, more, within, changed => by
      rw [Shape.specialized?, Option.isSome_map] at changed ⊢
      exact Node.specialized?_isSome_mono within changed
  | .sequence body, b, more, within, changed => by
      rw [Shape.specialized?, Option.isSome_map] at changed ⊢
      exact specializedAll?_isSome_mono within changed
  | .conditional test yes no, b, more, within, changed => by
      have first := Node.specialized?_isSome_mono (n := test) within
      have second := Node.specialized?_isSome_mono (n := yes) within
      have third := Node.specialized?_isSome_mono (n := no) within
      rw [Shape.specialized?] at changed ⊢
      generalize test.specialized? b = o, test.specialized? more = o', yes.specialized? b = p,
        yes.specialized? more = p', no.specialized? b = q, no.specialized? more = q'
        at first second third changed ⊢
      cases o <;> cases o' <;> cases p <;> cases p' <;> cases q <;> cases q' <;> simp_all
  | .binding pairs body, b, more, within, changed => by
      have first : (specializedPairs? pairs b).isSome → (specializedPairs? pairs more).isSome :=
        specializedPairs?_isSome_mono within
      have second := Node.specialized?_isSome_mono (n := body) (within.eraseAll (pairs.map (·.1)))
      rw [Shape.specialized?] at changed ⊢
      generalize specializedPairs? pairs b = o, specializedPairs? pairs more = o',
        body.specialized? (b.eraseAll (pairs.map (·.1))) = p,
        body.specialized? (more.eraseAll (pairs.map (·.1))) = p' at first second changed ⊢
      cases o <;> cases o' <;> cases p <;> cases p' <;> simp_all
  | .lambda _ _ body, b, more, within, changed => by
      rw [Shape.specialized?, Option.isSome_map] at changed ⊢
      exact Node.specialized?_isSome_mono (within.eraseAll _) changed
  | .expander _ _ body, b, more, within, changed => by
      rw [Shape.specialized?, Option.isSome_map] at changed ⊢
      exact Node.specialized?_isSome_mono (within.eraseAll _) changed
  | .vector items, b, more, within, changed | .list items, b, more, within, changed
  | .hashMap items, b, more, within, changed | .set items, b, more, within, changed => by
      rw [Shape.specialized?, Option.isSome_map] at changed ⊢
      exact specializedAll?_isSome_mono within changed
termination_by structural s => s

/-- So do nodes, by the first and the others. -/
theorem specializedAll?_isSome_mono
    : ∀ {ns : List Node} {b more : Bindings}, b.Within more → (specializedAll? ns b).isSome
        → (specializedAll? ns more).isSome
  | [], _, _, _, changed => by
      simp [specializedAll?] at changed
  | n :: rest, b, more, within, changed => by
      rw [specializedAll?, isSome_consChanged, Bool.or_eq_true] at changed ⊢
      exact changed.imp (Node.specialized?_isSome_mono within) (specializedAll?_isSome_mono within)
termination_by structural ns => ns

/-- So do pairs, by the first and the others. -/
theorem specializedPairs?_isSome_mono
    : ∀ {ps : List (Symbol × Node)} {b more : Bindings}, b.Within more
        → (specializedPairs? ps b).isSome → (specializedPairs? ps more).isSome
  | [], _, _, _, changed => by
      simp [specializedPairs?] at changed
  | (s, n) :: rest, b, more, within, changed => by
      rw [specializedPairs?, isSome_consChanged, Option.isSome_map, Bool.or_eq_true] at changed ⊢
      exact changed.imp (Node.specialized?_isSome_mono within)
        (specializedPairs?_isSome_mono within)
termination_by structural ps => ps

end

-----------------------------------------------------------------------------------------
-- Composition
-----------------------------------------------------------------------------------------

mutual

/-- To specialize for some names and then for more is to specialize for the latter. Witness:
induction on the node; a reference that the first bindings replace has the same value in the
second, and a node that the first change is a new node after either.
-/
theorem Node.specialized_specialized
    : ∀ (n : Node) {b more : Bindings}, b.Within more
        → (n.specialized b).specialized more = n.specialized more
  | ⟨shape, recorded, source, identity⟩, b, more, within => by
      by_cases reference : ∃ s, shape = .lookup s
      · obtain ⟨s, rfl⟩ := reference
        cases bound : b.lexical? s with
        | none => rw [Node.specialized_lookup_of_none bound]
        | some v =>
            rw [Node.specialized_lookup_of_some bound,
              Node.specialized_lookup_of_some (within.lexical? bound)]
            apply Node.specialized_constant (v := v)
            rw [Node.shape_replacedBy, Node.shape_locatedAt]
            rfl
      · have other : ∀ s, shape ≠ .lookup s := fun s same => reference ⟨s, same⟩
        have inner := Shape.specialized_specialized shape within
        have monotone := Shape.specialized?_isSome_mono (s := shape) within
        rw [Node.specialized_of_ne_lookup (n := ⟨shape, recorded, source, identity⟩) other b,
          Node.specialized_of_ne_lookup (n := ⟨shape, recorded, source, identity⟩) other more]
        dsimp only
        cases changed : (shape.specialized? b).isSome with
        | false => exact Node.specialized_of_ne_lookup other more
        | true =>
            rw [monotone changed, if_pos rfl, if_pos rfl, ← inner]
            rw [Node.specialized_of_ne_lookup (Shape.specialized_ne_lookup other b)]
            change (if ((shape.specialized b).specialized? more).isSome then _ else _) = _
            cases again : ((shape.specialized b).specialized? more).isSome with
            | false =>
                rw [Shape.specialized_of_unchanged again]
                rfl
            | true => rfl
termination_by structural n => n

/-- A shape that is specialized under some bindings and then under more is specialized under the
latter, part by part.
-/
theorem Shape.specialized_specialized
    : ∀ (s : Shape) {b more : Bindings}, b.Within more
        → (s.specialized b).specialized more = s.specialized more
  | .constant _, _, _, _ | .lookup _, _, _, _ | .quote _ _, _, _, _ | .invoke _ _ _, _, _, _
  | .invokeStatic _ _ _, _, _, _ | .cast _ _, _, _, _ | .instanceOf _ _, _, _, _ => rfl
  | .apply f args, b, more, within => by
      simp only [Shape.specialized, Node.specialized_specialized f within,
        specializedAll_specializedAll args within]
  | .define s expr, b, more, within => by
      simp only [Shape.specialized, Node.specialized_specialized expr within]
  | .sequence body, b, more, within => by
      simp only [Shape.specialized, specializedAll_specializedAll body within]
  | .conditional test yes no, b, more, within => by
      simp only [Shape.specialized, Node.specialized_specialized test within,
        Node.specialized_specialized yes within,
        Node.specialized_specialized no within]
  | .binding pairs body, b, more, within => by
      simp only [Shape.specialized, names_specializedPairs,
        specializedPairs_specializedPairs pairs within,
        Node.specialized_specialized body (within.eraseAll _)]
  | .lambda params rest body, b, more, within => by
      simp only [Shape.specialized, Node.specialized_specialized body (within.eraseAll _)]
  | .expander continuation params body, b, more, within => by
      simp only [Shape.specialized, Node.specialized_specialized body (within.eraseAll _)]
  | .vector items, b, more, within => by
      simp only [Shape.specialized, specializedAll_specializedAll items within]
  | .list items, b, more, within => by
      simp only [Shape.specialized, specializedAll_specializedAll items within]
  | .hashMap items, b, more, within => by
      simp only [Shape.specialized, specializedAll_specializedAll items within]
  | .set items, b, more, within => by
      simp only [Shape.specialized, specializedAll_specializedAll items within]
termination_by structural s => s

/-- So are nodes, by the first and the others. -/
theorem specializedAll_specializedAll
    : ∀ (ns : List Node) {b more : Bindings}, b.Within more
        → specializedAll (specializedAll ns b) more = specializedAll ns more
  | [], _, _, _ => rfl
  | n :: rest, b, more, within => by
      have first := Node.specialized_specialized n within
      have others := specializedAll_specializedAll rest within
      change (n.specialized b).specialized more :: specializedAll (specializedAll rest b) more = _
      rw [first, others]
      rfl
termination_by structural ns => ns

/-- So are pairs, by the first and the others. -/
theorem specializedPairs_specializedPairs
    : ∀ (ps : List (Symbol × Node)) {b more : Bindings}, b.Within more
        → specializedPairs (specializedPairs ps b) more = specializedPairs ps more
  | [], _, _, _ => rfl
  | (s, n) :: rest, b, more, within => by
      have first := Node.specialized_specialized n within
      have others := specializedPairs_specializedPairs rest within
      change (s, (n.specialized b).specialized more)
        :: specializedPairs (specializedPairs rest b) more = _
      rw [first, others]
      rfl
termination_by structural ps => ps

end

end IncrementalLisp
