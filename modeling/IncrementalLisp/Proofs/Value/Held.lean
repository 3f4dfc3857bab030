import IncrementalLisp.Proofs.Value.Exact
import IncrementalLisp.Proofs.Value.References

/-! Alike values refer to the same contexts, apart from contexts that are held in any case.
-/

namespace IncrementalLisp

/-- (SameBut kept xs ys) says that two lists hold the same contexts, apart from the kept ones. -/
def SameBut (kept xs ys : List ContextId)
    : Prop :=
  ∀ c, c ∉ kept → (c ∈ xs ↔ c ∈ ys)

namespace SameBut

variable {kept xs ys zs xs' ys' : List ContextId}

/-- Contexts are the same as themselves. -/
theorem refl (xs : List ContextId)
    : SameBut kept xs xs :=
  fun _ _ => Iff.rfl

/-- Two lists are the same contexts in either order. -/
theorem symm (same : SameBut kept xs ys)
    : SameBut kept ys xs :=
  fun c free => (same c free).symm

/-- Lists that are the same contexts stay so when put together. -/
theorem append (first : SameBut kept xs ys) (rest : SameBut kept xs' ys')
    : SameBut kept (xs ++ xs') (ys ++ ys') := by
  intro c free
  rw [List.mem_append, List.mem_append, first c free, rest c free]

/-- They stay so with one more context. -/
theorem cons (c : ContextId) (rest : SameBut kept xs ys)
    : SameBut kept (c :: xs) (c :: ys) := by
  intro d free
  rw [List.mem_cons, List.mem_cons, rest d free]

/-- Contexts that are all kept do not matter. -/
theorem of_among (first : Among (· ∈ kept) xs) (second : Among (· ∈ kept) ys)
    : SameBut kept xs ys :=
  fun c free => ⟨fun member => absurd (first c member) free,
    fun member => absurd (second c member) free⟩

/-- Contexts that are the same as kept ones are kept. -/
theorem among (same : SameBut kept xs ys) (known : Among (· ∈ kept) ys)
    : Among (· ∈ kept) xs := by
  intro c member
  by_contra free
  exact free (known c ((same c free).mp member))

/-- Lists that add to others only what these hold already. -/
theorem absorbed (first : ∀ c ∉ kept, c ∈ xs → c ∈ ys) (second : ∀ c ∉ kept, c ∈ xs' → c ∈ ys')
    (same : SameBut kept ys ys')
    : SameBut kept (xs ++ ys) (xs' ++ ys') := by
  intro c free
  rw [List.mem_append, List.mem_append]
  constructor
  · exact fun member => .inr ((same c free).mp (member.elim (first c free) id))
  · exact fun member => .inr ((same c free).mpr (member.elim (second c free) id))

end SameBut

/-- (M.Holds kept) says that bodies that stand for each other refer to kept contexts and to those
of their captured bindings alone.
-/
structure Likeness.Holds (M : Likeness) (kept : List ContextId) : Prop extends M.Exact where
  body
    : ∀ {names b n b' n'}, M.body names b n b' n' → ∀ c ∉ kept,
        (c ∈ n.contexts → c ∈ contextsOfBindings b)
          ∧ (c ∈ n'.contexts → c ∈ contextsOfBindings b')

variable {M : Likeness} {kept : List ContextId}

mutual

/-- Alike values refer to the same contexts, apart from kept ones. Witness: induction on the value.
-/
theorem Value.Alike.contexts_same (holds : M.Holds kept)
    : ∀ {v w : Value}, v.Alike M w → SameBut kept v.contexts w.contexts
  | .list _ _, _, ⟨_, same, items⟩ => by
      rw [same]
      exact ValuesAlike.contexts_same holds items
  | .vector _, _, ⟨_, same, items⟩ => by
      rw [same]
      exact ValuesAlike.contexts_same holds items
  | .map _, _, ⟨_, same, entries⟩ => by
      rw [same]
      exact EntriesAlike.contexts_same holds entries
  | .set _, _, ⟨_, same, items⟩ => by
      rw [same]
      exact ValuesAlike.contexts_same holds items
  | .function _, _, ⟨_, same, inner⟩ => by
      rw [same]
      exact Function.Alike.contexts_same holds inner
  | .expander _, _, ⟨_, same, inner⟩ => by
      rw [same]
      exact Expander.Alike.contexts_same holds inner
  | .node _, _, ⟨_, same, inner⟩ => by
      rw [same]
      exact Node.Alike.contexts_same holds inner
  | .nil, _, same | .bool _, _, same | .int _, _, same | .float _, _, same | .char _, _, same
  | .string _, _, same | .symbol _, _, same | .keyword _, _, same | .type _, _, same => by
      rw [same]
      exact .refl _
termination_by structural v => v

/-- Functions that are alike refer to the same contexts, but for those that are kept, by their kind.
-/
theorem Function.Alike.contexts_same (holds : M.Holds kept)
    : ∀ {f g : Function}, f.Alike M g → SameBut kept f.contexts g.contexts
  | .builtin _, _, same => by
      rw [same]
      exact .refl _
  | .closure _, _, ⟨_, same, inner⟩ => by
      rw [same]
      exact Closure.Alike.contexts_same holds inner
termination_by structural f => f

/-- So do closures, by their bodies, what they captured and their contexts. -/
theorem Closure.Alike.contexts_same (holds : M.Holds kept)
    : ∀ {f g : Closure}, f.Alike M g → SameBut kept f.contexts g.contexts
  | ⟨_, _, _, _, _, context⟩, ⟨_, _, _, _, _, _⟩, ⟨_, _, _, bodies, captured, contexts⟩ => by
      dsimp only at bodies captured contexts
      obtain rfl := holds.context.mp contexts
      rw [Closure.contexts, Closure.contexts]
      have inner := BindingsAlike.contexts_same holds captured
      rcases bodies with alike | stand
      · exact .cons _ ((Node.Alike.contexts_same holds alike).append inner)
      · have within := holds.body stand
        exact .cons _ (.absorbed (fun c free => (within c free).1) (fun c free => (within c free).2)
          inner)
termination_by structural f => f

/-- So do expanders, by their kind. -/
theorem Expander.Alike.contexts_same (holds : M.Holds kept)
    : ∀ {e e' : Expander}, e.Alike M e' → SameBut kept e.contexts e'.contexts
  | .initial _, _, ⟨_, same, _⟩ | .form _, _, same => by
      rw [same]
      exact .refl _
  | .ofUser _, _, ⟨_, same, inner⟩ => by
      rw [same]
      exact UserExpander.Alike.contexts_same holds inner
  | .ofMacro _, _, ⟨_, same, inner⟩ => by
      rw [same]
      exact Macro.Alike.contexts_same holds inner
termination_by structural e => e

/-- So do expanders of users, by their bodies and what they captured. -/
theorem UserExpander.Alike.contexts_same (holds : M.Holds kept)
    : ∀ {u v : UserExpander}, u.Alike M v → SameBut kept u.contexts v.contexts
  | ⟨_, _, _, _, _⟩, ⟨_, _, _, _, _⟩, ⟨_, _, _, bodies, captured⟩ => by
      dsimp only at bodies captured
      rw [UserExpander.contexts, UserExpander.contexts]
      have inner := BindingsAlike.contexts_same holds captured
      rcases bodies with alike | stand
      · exact (Node.Alike.contexts_same holds alike).append inner
      · have within := holds.body stand
        exact .absorbed (fun c free => (within c free).1) (fun c free => (within c free).2) inner
termination_by structural u => u

/-- So do macros, by their functions. -/
theorem Macro.Alike.contexts_same (holds : M.Holds kept)
    : ∀ {m n : Macro}, m.Alike M n → SameBut kept m.contexts n.contexts
  | ⟨_, _⟩, ⟨_, _⟩, ⟨_, inner⟩ => Function.Alike.contexts_same holds inner
termination_by structural m => m

/-- So do nodes, by their shapes. -/
theorem Node.Alike.contexts_same (holds : M.Holds kept)
    : ∀ {n m : Node}, n.Alike M m → SameBut kept n.contexts m.contexts
  | ⟨_, _, _, _⟩, ⟨_, _, _, _⟩, ⟨shapes, _⟩ => Shape.Alike.contexts_same holds shapes
termination_by structural n => n

/-- So do shapes, part by part. -/
theorem Shape.Alike.contexts_same (holds : M.Holds kept)
    : ∀ {s t : Shape}, s.Alike M t → SameBut kept s.contexts t.contexts
  | .constant _, _, ⟨_, same, inner⟩ => by
      rw [same]
      exact Value.Alike.contexts_same holds inner
  | .lookup _, _, same => by
      rw [same]
      exact .refl _
  | .apply _ _, _, ⟨_, _, same, callee, args⟩ => by
      rw [same]
      exact (Node.Alike.contexts_same holds callee).append (NodesAlike.contexts_same holds args)
  | .define _ _, _, ⟨_, same, inner⟩ => by
      rw [same]
      exact Node.Alike.contexts_same holds inner
  | .sequence _, _, ⟨_, same, body⟩ => by
      rw [same]
      exact NodesAlike.contexts_same holds body
  | .conditional _ _ _, _, ⟨_, _, _, same, test, yes, no⟩ => by
      rw [same]
      exact ((Node.Alike.contexts_same holds test).append
        (Node.Alike.contexts_same holds yes)).append (Node.Alike.contexts_same holds no)
  | .binding _ _, _, ⟨_, _, same, pairs, body⟩ => by
      rw [same]
      exact (PairsAlike.contexts_same holds pairs).append (Node.Alike.contexts_same holds body)
  | .lambda _ _ _, _, ⟨_, same, inner⟩ => by
      rw [same]
      exact Node.Alike.contexts_same holds inner
  | .expander _ _ _, _, ⟨_, same, inner⟩ => by
      rw [same]
      exact Node.Alike.contexts_same holds inner
  | .quote _ _, _, ⟨_, same, inner⟩ => by
      rw [same]
      exact Value.Alike.contexts_same holds inner
  | .vector _, _, ⟨_, same, items⟩ => by
      rw [same]
      exact NodesAlike.contexts_same holds items
  | .list _, _, ⟨_, same, items⟩ => by
      rw [same]
      exact NodesAlike.contexts_same holds items
  | .hashMap _, _, ⟨_, same, items⟩ => by
      rw [same]
      exact NodesAlike.contexts_same holds items
  | .set _, _, ⟨_, same, items⟩ => by
      rw [same]
      exact NodesAlike.contexts_same holds items
  | .invoke _ _ _, _, ⟨_, _, same, target, args⟩ => by
      rw [same]
      exact (Node.Alike.contexts_same holds target).append (NodesAlike.contexts_same holds args)
  | .invokeStatic _ _ _, _, ⟨_, same, args⟩ => by
      rw [same]
      exact NodesAlike.contexts_same holds args
  | .cast _ _, _, ⟨_, same, inner⟩ => by
      rw [same]
      exact Node.Alike.contexts_same holds inner
  | .instanceOf _ _, _, ⟨_, _, same, type, expr⟩ => by
      rw [same]
      exact (Node.Alike.contexts_same holds type).append (Node.Alike.contexts_same holds expr)
termination_by structural s => s

/-- So do several values. -/
theorem ValuesAlike.contexts_same (holds : M.Holds kept)
    : ∀ {vs ws : List Value}, ValuesAlike M vs ws
        → SameBut kept (contextsOfAll vs) (contextsOfAll ws)
  | [], _, same => by
      rw [same]
      exact .refl _
  | _ :: _, _, ⟨_, _, same, first, rest⟩ => by
      rw [same]
      exact (Value.Alike.contexts_same holds first).append (ValuesAlike.contexts_same holds rest)
termination_by structural vs => vs

/-- So do entries. -/
theorem EntriesAlike.contexts_same (holds : M.Holds kept)
    : ∀ {es es' : List (Value × Value)}, EntriesAlike M es es'
        → SameBut kept (contextsOfEntries es) (contextsOfEntries es')
  | [], _, same => by
      rw [same]
      exact .refl _
  | (_, _) :: _, _, ⟨_, _, _, same, key, value, rest⟩ => by
      rw [same]
      exact ((Value.Alike.contexts_same holds key).append
        (Value.Alike.contexts_same holds value)).append (EntriesAlike.contexts_same holds rest)
termination_by structural es => es

/-- So do bindings. -/
theorem BindingsAlike.contexts_same (holds : M.Holds kept)
    : ∀ {bs bs' : List (Symbol × Value)}, BindingsAlike M bs bs'
        → SameBut kept (contextsOfBindings bs) (contextsOfBindings bs')
  | [], _, same => by
      rw [same]
      exact .refl _
  | (_, _) :: _, _, ⟨_, _, same, first, rest⟩ => by
      rw [same]
      exact (Value.Alike.contexts_same holds first).append (BindingsAlike.contexts_same holds rest)
termination_by structural bs => bs

/-- So do several nodes. -/
theorem NodesAlike.contexts_same (holds : M.Holds kept)
    : ∀ {ns ns' : List Node}, NodesAlike M ns ns'
        → SameBut kept (contextsOfNodes ns) (contextsOfNodes ns')
  | [], _, same => by
      rw [same]
      exact .refl _
  | _ :: _, _, ⟨_, _, same, first, rest⟩ => by
      rw [same]
      exact (Node.Alike.contexts_same holds first).append (NodesAlike.contexts_same holds rest)
termination_by structural ns => ns

/-- So do pairs. -/
theorem PairsAlike.contexts_same (holds : M.Holds kept)
    : ∀ {ps ps' : List (Symbol × Node)}, PairsAlike M ps ps'
        → SameBut kept (contextsOfPairs ps) (contextsOfPairs ps')
  | [], _, same => by
      rw [same]
      exact .refl _
  | (_, _) :: _, _, ⟨_, _, same, first, rest⟩ => by
      rw [same]
      exact (Node.Alike.contexts_same holds first).append (PairsAlike.contexts_same holds rest)
termination_by structural ps => ps

end

end IncrementalLisp
