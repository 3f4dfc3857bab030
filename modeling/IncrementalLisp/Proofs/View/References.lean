import IncrementalLisp.Proofs.Value.Held
import IncrementalLisp.Proofs.View.Basic

/-! What a value refers to, as a view sees it. The programs that are seen of programs read the same
names, and what is seen of a value refers to the same contexts, apart from those that unseen
captured values may refer to.
-/

namespace IncrementalLisp

variable {V : View}

-----------------------------------------------------------------------------------------
-- Names
-----------------------------------------------------------------------------------------

/-- Pairs are seen with their names. -/
theorem fst_seenPairs (pairs : List (Symbol × Node))
    : (seenPairs V pairs).map (·.1) = pairs.map (·.1) := by
  simp [Function.comp_def]

mutual

/-- What is seen of a node reads the same names. Witness: induction on the node. -/
@[simp] theorem Node.reads_seen
    : ∀ n : Node, (n.seen V).reads = n.reads
  | ⟨shape, _, _, _⟩ => by
      funext s
      rw [Node.seen, Node.reads, Node.reads, Shape.reads_seen shape]
termination_by structural n => n

/-- A shape reads the symbols that it is seen to read, part by part. -/
@[simp] theorem Shape.reads_seen
    : ∀ shape : Shape, (shape.seen V).reads = shape.reads
  | .constant _ | .lookup _ | .quote _ _ => rfl
  | .apply f args => by
      funext s
      rw [Shape.seen, Shape.reads, Shape.reads, Node.reads_seen f, anyReads_seen args]
  | .define _ expr => by
      funext s
      rw [Shape.seen, Shape.reads, Shape.reads, Node.reads_seen expr]
  | .sequence body => by
      funext s
      rw [Shape.seen, Shape.reads, Shape.reads, anyReads_seen body]
  | .conditional test yes no => by
      funext s
      rw [Shape.seen, Shape.reads, Shape.reads, Node.reads_seen test, Node.reads_seen yes,
        Node.reads_seen no]
  | .binding pairs body => by
      funext s
      rw [Shape.seen, Shape.reads, Shape.reads, pairsRead_seen pairs, Node.reads_seen body,
        fst_seenPairs]
  | .lambda _ _ body => by
      funext s
      rw [Shape.seen, Shape.reads, Shape.reads, Node.reads_seen body]
  | .expander _ _ body => by
      funext s
      rw [Shape.seen, Shape.reads, Shape.reads, Node.reads_seen body]
  | .vector items => by
      funext s
      rw [Shape.seen, Shape.reads, Shape.reads, anyReads_seen items]
  | .list items => by
      funext s
      rw [Shape.seen, Shape.reads, Shape.reads, anyReads_seen items]
  | .hashMap items => by
      funext s
      rw [Shape.seen, Shape.reads, Shape.reads, anyReads_seen items]
  | .set items => by
      funext s
      rw [Shape.seen, Shape.reads, Shape.reads, anyReads_seen items]
  | .invoke target _ args => by
      funext s
      rw [Shape.seen, Shape.reads, Shape.reads, Node.reads_seen target, anyReads_seen args]
  | .invokeStatic _ _ args => by
      funext s
      rw [Shape.seen, Shape.reads, Shape.reads, anyReads_seen args]
  | .cast _ expr => by
      funext s
      rw [Shape.seen, Shape.reads, Shape.reads, Node.reads_seen expr]
  | .instanceOf type expr => by
      funext s
      rw [Shape.seen, Shape.reads, Shape.reads, Node.reads_seen type, Node.reads_seen expr]
termination_by structural s => s

/-- So do several nodes. -/
theorem anyReads_seen
    : ∀ ns : List Node, anyReads (seenNodes V ns) = anyReads ns
  | [] => rfl
  | n :: rest => by
      funext s
      rw [seenNodes, anyReads, anyReads, Node.reads_seen n, anyReads_seen rest]
termination_by structural ns => ns

/-- So do pairs. -/
theorem pairsRead_seen
    : ∀ ps : List (Symbol × Node), pairsRead (seenPairs V ps) = pairsRead ps
  | [] => rfl
  | (_, n) :: rest => by
      funext s
      rw [seenPairs, pairsRead, pairsRead, Node.reads_seen n, pairsRead_seen rest]
termination_by structural ps => ps

end

-----------------------------------------------------------------------------------------
-- Contexts
-----------------------------------------------------------------------------------------

/-- A value that a view leaves out refers to absorbed contexts alone. -/
theorem View.mem_absorbed_of_drops {v : Value} (dropped : V.drops v = true) {c : ContextId}
    (member : c ∈ v.contexts)
    : c ∈ V.absorbed := by
  unfold drops at dropped
  unfold absorbed
  cases kept : V.kept with
  | none => simp [kept] at dropped
  | some held => simp_all

mutual

/-- What is seen of a value refers to the same contexts, apart from absorbed ones. Witness:
induction on the value; captured values that are left out refer to absorbed contexts alone.
-/
theorem Value.contexts_seen
    : ∀ v : Value, SameBut V.absorbed (v.seen V).contexts v.contexts
  | .list items _ => contextsOfAll_seen items
  | .vector items => contextsOfAll_seen items
  | .map entries => contextsOfEntries_seen entries
  | .set items => contextsOfAll_seen items
  | .function f => Function.contexts_seen f
  | .expander e => Expander.contexts_seen e
  | .node n => Node.contexts_seen n
  | .nil | .bool _ | .int _ | .float _ | .char _ | .string _ | .symbol _ | .keyword _
  | .type _ => .refl _
termination_by structural v => v

/-- A function is seen to refer to what it does, but for the contexts that the view absorbs, by its
kind.
-/
theorem Function.contexts_seen
    : ∀ f : Function, SameBut V.absorbed (f.seen V).contexts f.contexts
  | .builtin _ => .refl _
  | .closure f => Closure.contexts_seen f
termination_by structural f => f

/-- So is a closure, by its body, what it captured and its context. -/
theorem Closure.contexts_seen
    : ∀ f : Closure, SameBut V.absorbed (f.seen V).contexts f.contexts
  | ⟨_, _, _, body, captured, context⟩ =>
      ((Node.contexts_seen body).append (contextsOfBindings_seen body.reads captured)).cons context
termination_by structural f => f

/-- So is an expander, by its kind. -/
theorem Expander.contexts_seen
    : ∀ e : Expander, SameBut V.absorbed (e.seen V).contexts e.contexts
  | .initial _ | .form _ => .refl _
  | .ofUser u => UserExpander.contexts_seen u
  | .ofMacro m => Macro.contexts_seen m
termination_by structural e => e

/-- So is an expander of a user, by its body and what it captured. -/
theorem UserExpander.contexts_seen
    : ∀ u : UserExpander, SameBut V.absorbed (u.seen V).contexts u.contexts
  | ⟨_, _, _, body, captured⟩ =>
      (Node.contexts_seen body).append (contextsOfBindings_seen body.reads captured)
termination_by structural u => u

/-- So is a macro, by its function. -/
theorem Macro.contexts_seen
    : ∀ m : Macro, SameBut V.absorbed (m.seen V).contexts m.contexts
  | ⟨_, function⟩ => Function.contexts_seen function
termination_by structural m => m

/-- So is a node, by its shape. -/
theorem Node.contexts_seen
    : ∀ n : Node, SameBut V.absorbed (n.seen V).contexts n.contexts
  | ⟨shape, _, _, _⟩ => Shape.contexts_seen shape
termination_by structural n => n

/-- So is a shape, part by part. -/
theorem Shape.contexts_seen
    : ∀ s : Shape, SameBut V.absorbed (s.seen V).contexts s.contexts
  | .constant v => Value.contexts_seen v
  | .lookup _ => .refl _
  | .apply f args => (Node.contexts_seen f).append (contextsOfNodes_seen args)
  | .define _ expr => Node.contexts_seen expr
  | .sequence body => contextsOfNodes_seen body
  | .conditional test yes no =>
      ((Node.contexts_seen test).append (Node.contexts_seen yes)).append (Node.contexts_seen no)
  | .binding pairs body => (contextsOfPairs_seen pairs).append (Node.contexts_seen body)
  | .lambda _ _ body => Node.contexts_seen body
  | .expander _ _ body => Node.contexts_seen body
  | .quote form _ => Value.contexts_seen form
  | .vector items => contextsOfNodes_seen items
  | .list items => contextsOfNodes_seen items
  | .hashMap items => contextsOfNodes_seen items
  | .set items => contextsOfNodes_seen items
  | .invoke target _ args => (Node.contexts_seen target).append (contextsOfNodes_seen args)
  | .invokeStatic _ _ args => contextsOfNodes_seen args
  | .cast _ expr => Node.contexts_seen expr
  | .instanceOf type expr => (Node.contexts_seen type).append (Node.contexts_seen expr)
termination_by structural s => s

/-- So are several values. -/
theorem contextsOfAll_seen
    : ∀ vs : List Value, SameBut V.absorbed (contextsOfAll (seenAll V vs)) (contextsOfAll vs)
  | [] => .refl _
  | v :: rest => (Value.contexts_seen v).append (contextsOfAll_seen rest)
termination_by structural vs => vs

/-- So are entries. -/
theorem contextsOfEntries_seen
    : ∀ es : List (Value × Value),
        SameBut V.absorbed (contextsOfEntries (seenEntries V es)) (contextsOfEntries es)
  | [] => .refl _
  | (k, v) :: rest =>
      ((Value.contexts_seen k).append (Value.contexts_seen v)).append (contextsOfEntries_seen rest)
termination_by structural es => es

/-- So are bindings: what is not seen of them refers to absorbed contexts. -/
theorem contextsOfBindings_seen
    : ∀ (reads : Symbol → Bool) (bs : List (Symbol × Value)),
        SameBut V.absorbed (contextsOfBindings (seenCaptured V reads bs)) (contextsOfBindings bs)
  | _, [] => .refl _
  | reads, (s, v) :: rest => by
      have others := contextsOfBindings_seen reads rest
      rw [seenCaptured]
      split
      · exact (Value.contexts_seen v).append others
      · rename_i unread
        have dropped : V.drops v = true := by simp_all
        intro c free
        rw [contextsOfBindings, List.mem_append, others c free]
        exact ⟨.inr, fun member => member.resolve_left fun mine =>
          free (View.mem_absorbed_of_drops dropped mine)⟩
termination_by structural _ bs => bs

/-- So are several nodes. -/
theorem contextsOfNodes_seen
    : ∀ ns : List Node, SameBut V.absorbed (contextsOfNodes (seenNodes V ns)) (contextsOfNodes ns)
  | [] => .refl _
  | n :: rest => (Node.contexts_seen n).append (contextsOfNodes_seen rest)
termination_by structural ns => ns

/-- So are pairs. -/
theorem contextsOfPairs_seen
    : ∀ ps : List (Symbol × Node),
        SameBut V.absorbed (contextsOfPairs (seenPairs V ps)) (contextsOfPairs ps)
  | [] => .refl _
  | (_, n) :: rest => (Node.contexts_seen n).append (contextsOfPairs_seen rest)
termination_by structural ps => ps

end

/-- Whether a captured value may be left out depends on what is seen of it alone. -/
@[simp] theorem View.drops_seen (v : Value)
    : V.drops (v.seen V) = V.drops v := by
  have contexts := v.contexts_seen (V := V)
  unfold SameBut absorbed at contexts
  unfold drops
  cases kept : V.kept with
  | none => rfl
  | some held =>
      rw [kept] at contexts
      rw [Bool.eq_iff_iff]
      simp only [List.all_eq_true, List.contains_iff_mem, Option.getD_some] at contexts ⊢
      exact ⟨fun all c member => by_contra fun free => free (all c ((contexts c free).mpr member)),
        fun all c member => by_contra fun free => free (all c ((contexts c free).mp member))⟩

/-- Values that are seen alike refer to the same contexts, apart from absorbed ones. -/
theorem contextsOfAll_same {vs vs' : List Value}
    (same : vs.map (Value.seen V) = vs'.map (Value.seen V))
    : SameBut V.absorbed (contextsOfAll vs) (contextsOfAll vs') := by
  intro c free
  rw [← contextsOfAll_seen vs c free, ← contextsOfAll_seen vs' c free, seenAll_eq_map,
    seenAll_eq_map, same]

/-- So do nodes that are seen alike. -/
theorem Node.contexts_same {n n' : Node} (same : n.seen V = n'.seen V)
    : SameBut V.absorbed n.contexts n'.contexts := by
  intro c free
  rw [← n.contexts_seen c free, same, n'.contexts_seen c free]

/-- So do bindings that are seen alike, whatever is read of them. -/
theorem contextsOfBindings_same {reads : Symbol → Bool} {b b' : Bindings}
    (same : Bindings.seen V reads b = Bindings.seen V reads b')
    : SameBut V.absorbed (contextsOfBindings b) (contextsOfBindings b') := by
  intro c free
  rw [← contextsOfBindings_seen reads b c free, ← contextsOfBindings_seen reads b' c free,
    seenCaptured_eq_seen, seenCaptured_eq_seen, same]

end IncrementalLisp
