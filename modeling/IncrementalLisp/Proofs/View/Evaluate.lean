import IncrementalLisp.Machine.Evaluate
import IncrementalLisp.Proofs.View.Optimize
import IncrementalLisp.Proofs.View.Run

/-! Evaluation of programs that look alike, under bindings that look alike to them, if the machine
below respects the view.
-/

namespace IncrementalLisp

/-- What a view sees of what an evaluation comes to. -/
def seenState (V : View) (x : Value × ContextId)
    : Value × ContextId :=
  (x.1.seen V, x.2)

/-- (m.Respects V) says that a machine does the same, as far as the view tells, with nodes, values,
slots and forms that look alike. Nodes are evaluated under bindings that look alike to them.
-/
structure Machine.Respects (V : View) (m : Machine) : Prop where
  eval
    : ∀ {n n' : Node} (c : ContextId) {b b' : Bindings}, n.seen V = n'.seen V
        → Bindings.seen V n.reads b = Bindings.seen V n.reads b'
        → Run.Agree V (seenState V) (m.eval n c b) (m.eval n' c b')
  call
    : ∀ {f f' : Value} {args args' : List Value} (c : ContextId), f.seen V = f'.seen V
        → args.map (Value.seen V) = args'.map (Value.seen V)
        → Run.Agree V (Value.seen V) (m.call f args c) (m.call f' args' c)
  force
    : ∀ {slot slot' : Slot} (c : ContextId), slot.seen V = slot'.seen V
        → Run.Agree V (Value.seen V) (m.force slot c) (m.force slot' c)
  expand
    : ∀ {e e' : Expander} (c : ContextId) {form form' : Value} {k k' : Expander},
        e.seen V = e'.seen V → form.seen V = form'.seen V → k.seen V = k'.seen V
        → Run.Agree V (Node.seen V) (m.expand e c form k) (m.expand e' c form' k')

variable {V : View}

-----------------------------------------------------------------------------------------
-- Shapes that look alike
-----------------------------------------------------------------------------------------

section Shapes

variable (V)

/-- Shapes that look alike, by their parts. -/
inductive Shape.LooksLike : Shape → Shape → Prop where
  | constant {v w : Value} (same : v.seen V = w.seen V) : LooksLike (.constant v) (.constant w)
  | lookup (s : Symbol) : LooksLike (.lookup s) (.lookup s)
  | apply {f f' : Node} {args args' : List Node} (same : f.seen V = f'.seen V)
      (others : args.map (Node.seen V) = args'.map (Node.seen V))
      : LooksLike (.apply f args) (.apply f' args')
  | define (s : Symbol) {expr expr' : Node} (same : expr.seen V = expr'.seen V)
      : LooksLike (.define s expr) (.define s expr')
  | sequence {body body' : List Node} (same : body.map (Node.seen V) = body'.map (Node.seen V))
      : LooksLike (.sequence body) (.sequence body')
  | conditional {test test' yes yes' no no' : Node} (tests : test.seen V = test'.seen V)
      (same : yes.seen V = yes'.seen V) (others : no.seen V = no'.seen V)
      : LooksLike (.conditional test yes no) (.conditional test' yes' no')
  | binding {pairs pairs' : List (Symbol × Node)} {body body' : Node}
      (bound : pairs.map (seenPair V) = pairs'.map (seenPair V))
      (same : body.seen V = body'.seen V)
      : LooksLike (.binding pairs body) (.binding pairs' body')
  | lambda (params : List Symbol) (rest : Option Symbol) {body body' : Node}
      (same : body.seen V = body'.seen V)
      : LooksLike (.lambda params rest body) (.lambda params rest body')
  | expander (continuation : Symbol) (params : List Symbol) {body body' : Node}
      (same : body.seen V = body'.seen V)
      : LooksLike (.expander continuation params body) (.expander continuation params body')
  | quote {form form' : Value} (isSyntax : Bool) (same : form.seen V = form'.seen V)
      : LooksLike (.quote form isSyntax) (.quote form' isSyntax)
  | vector {items items' : List Node} (same : items.map (Node.seen V) = items'.map (Node.seen V))
      : LooksLike (.vector items) (.vector items')
  | list {items items' : List Node} (same : items.map (Node.seen V) = items'.map (Node.seen V))
      : LooksLike (.list items) (.list items')
  | hashMap {items items' : List Node} (same : items.map (Node.seen V) = items'.map (Node.seen V))
      : LooksLike (.hashMap items) (.hashMap items')
  | set {items items' : List Node} (same : items.map (Node.seen V) = items'.map (Node.seen V))
      : LooksLike (.set items) (.set items')
  | invoke {target target' : Node} (member : Symbol) {args args' : List Node}
      (same : target.seen V = target'.seen V)
      (others : args.map (Node.seen V) = args'.map (Node.seen V))
      : LooksLike (.invoke target member args) (.invoke target' member args')
  | invokeStatic (type : String) (member : Symbol) {args args' : List Node}
      (same : args.map (Node.seen V) = args'.map (Node.seen V))
      : LooksLike (.invokeStatic type member args) (.invokeStatic type member args')
  | cast (type : String) {expr expr' : Node} (same : expr.seen V = expr'.seen V)
      : LooksLike (.cast type expr) (.cast type expr')
  | instanceOf {type type' expr expr' : Node} (types : type.seen V = type'.seen V)
      (same : expr.seen V = expr'.seen V)
      : LooksLike (.instanceOf type expr) (.instanceOf type' expr')

end Shapes

/-- Shapes that are seen alike look alike. Witness: by the kinds of both. -/
theorem Shape.looksLike {s s' : Shape} (same : s.seen V = s'.seen V)
    : LooksLike V s s' := by
  cases s <;> cases s' <;> simp at same
  case constant.constant => exact .constant same
  case lookup.lookup =>
    subst same
    exact .lookup _
  case apply.apply => exact .apply same.1 same.2
  case define.define =>
    obtain ⟨rfl, same⟩ := same
    exact .define _ same
  case sequence.sequence => exact .sequence same
  case conditional.conditional => exact .conditional same.1 same.2.1 same.2.2
  case binding.binding => exact .binding same.1 same.2
  case lambda.lambda =>
    obtain ⟨rfl, rfl, same⟩ := same
    exact .lambda _ _ same
  case expander.expander =>
    obtain ⟨rfl, rfl, same⟩ := same
    exact .expander _ _ same
  case quote.quote =>
    obtain ⟨same, rfl⟩ := same
    exact .quote _ same
  case vector.vector => exact .vector same
  case list.list => exact .list same
  case hashMap.hashMap => exact .hashMap same
  case set.set => exact .set same
  case invoke.invoke =>
    obtain ⟨same, rfl, others⟩ := same
    exact .invoke _ same others
  case invokeStatic.invokeStatic =>
    obtain ⟨rfl, rfl, same⟩ := same
    exact .invokeStatic _ _ same
  case cast.cast =>
    obtain ⟨rfl, same⟩ := same
    exact .cast _ same
  case instanceOf.instanceOf => exact .instanceOf same.1 same.2

-----------------------------------------------------------------------------------------
-- Bindings of parts
-----------------------------------------------------------------------------------------

section Parts

variable {n : Node} {rest : List Node} {b b' : Bindings}
  (same : Bindings.seen V (anyReads (n :: rest)) b = Bindings.seen V (anyReads (n :: rest)) b')
include same

/-- Bindings that are seen alike by several nodes are so by the first one. -/
theorem Bindings.same_head
    : seen V n.reads b = seen V n.reads b' :=
  same_of_fewer same fun s read => by simp [anyReads, read]

/-- They are so by the others. -/
theorem Bindings.same_tail
    : seen V (anyReads rest) b = seen V (anyReads rest) b' :=
  same_of_fewer same fun s read => by simp [anyReads, read]

end Parts

namespace Machine.Respects

open Run

variable {m : Machine} (machines : m.Respects V) {b b' : Bindings}

-----------------------------------------------------------------------------------------
-- Looking symbols up
-----------------------------------------------------------------------------------------

section Lookups

include machines

/-- The values of nodes that are seen alike agree, as their ends do. -/
theorem compute {n n' : Node} (same : n.seen V = n'.seen V)
    (bindings : Bindings.seen V n.reads b = Bindings.seen V n.reads b') (c : ContextId)
    : Agree V (Value.seen V) (m.compute n c b) (m.compute n' c b') :=
  (machines.eval c same bindings).bind fun same => .pure (congrArg Prod.fst same)

/-- So do those of several nodes, one by one. -/
theorem computeAll {ns ns' : List Node}
    (same : List.Forall₂ (fun n n' => n.seen V = n'.seen V) ns ns')
    (bindings : Bindings.seen V (anyReads ns) b = Bindings.seen V (anyReads ns) b') (c : ContextId)
    : Agree V (List.map (Value.seen V)) (m.computeAll ns c b) (m.computeAll ns' c b') := by
  refine .gather id ?_
  induction same with
  | nil => exact .nil
  | cons first _ ih =>
      exact .cons (machines.compute first (Bindings.same_head bindings) c)
        (ih (Bindings.same_tail bindings))

/-- To ask for the namespace agrees, since its slot is seen alike. -/
theorem currentSpace (c : ContextId)
    : Agree V id (m.currentSpace c) (m.currentSpace c) := by
  refine (Run.Agree.context c).bind fun {here there} contexts => ?_
  have slots := Context.slots_same contexts Symbol.currentSpace
  generalize here.slots[Symbol.currentSpace]? = o, there.slots[Symbol.currentSpace]? = o'
    at slots ⊢
  cases slots with
  | none => exact .pure rfl
  | some same =>
      refine (machines.force c same).attempt (fun values => ?_) fun _ => .pure rfl
      cases Value.looksLike values <;> exact .pure rfl

/-- So does qualifying a symbol. -/
theorem qualify (c : ContextId) (s : Symbol)
    : Agree V id (m.qualify c s) (m.qualify c s) := by
  unfold Machine.qualify
  split
  · exact .pure rfl
  · exact (machines.currentSpace c).bindEq fun _ => .pure rfl

/-- So does looking a slot up, in contexts that are seen alike. -/
theorem slot? (c : ContextId) (s : Symbol)
    : Agree V (Option.map (Slot.seen V)) (m.slot? c s) (m.slot? c s) := by
  unfold Machine.slot?
  split
  · refine (Run.Agree.context c).bind fun {here there} contexts => .pure ?_
    rw [← here.getElem?_slots_seen, contexts, there.getElem?_slots_seen]
  · refine (machines.currentSpace c).bindEq fun space => ?_
    refine (Run.Agree.context c).bind fun {here there} contexts => .pure ?_
    rw [← here.slotIn?_seen, contexts, there.slotIn?_seen]

/-- So does the value of a symbol, that of the slot. -/
theorem valueOf (c : ContextId) (s : Symbol)
    : Agree V (Value.seen V) (m.valueOf c s) (m.valueOf c s) := by
  refine (machines.slot? c s).bind fun {o o'} slots => ?_
  cases rel_of_map_eq slots with
  | some same => exact machines.force c same
  | none => exact (machines.qualify c s).bindEq fun _ => .fail rfl

/-- So does a definition of nodes that are seen alike, under bindings that are. -/
theorem define {n n' : Node} (same : n.seen V = n'.seen V)
    (bindings : Bindings.seen V n.reads b = Bindings.seen V n.reads b') (c : ContextId) (s : Symbol)
    : Agree V id (m.define c s n b) (m.define c s n' b') := by
  refine (machines.currentSpace c).bindEq fun space => ?_
  refine .modifyGet fun {_ st st'} stores fits => ?_
  have defined := st.define_seen c space s n b (V := V)
  rw [stores, same, bindings, Node.reads_same same, st'.define_seen] at defined
  exact ⟨(congrArg Prod.fst defined).symm, (congrArg Prod.snd defined).symm, fits.host, fits.kept⟩

end Lookups

-----------------------------------------------------------------------------------------
-- Nodes
-----------------------------------------------------------------------------------------

include machines in
/-- So do sequences. Witness: induction on the nodes. -/
theorem evalSequence {ns ns' : List Node}
    (same : List.Forall₂ (fun n n' => n.seen V = n'.seen V) ns ns')
    (bindings : Bindings.seen V (anyReads ns) b = Bindings.seen V (anyReads ns) b')
    {last last' : Value} (ends : last.seen V = last'.seen V) (c : ContextId)
    : Agree V (seenState V) (m.evalSequence ns last c b) (m.evalSequence ns' last' c b') := by
  induction same generalizing last last' c with
  | nil => exact .pure (congrArg (·, c) ends)
  | cons first _ ih =>
      have head := machines.eval c first (Bindings.same_head bindings)
      refine (head.holdingOne ends).bind fun {x y} ends => ?_
      obtain ⟨v, d⟩ := x
      obtain ⟨w, d'⟩ := y
      obtain ⟨values, rfl⟩ : v.seen V = w.seen V ∧ d = d' := Prod.mk.inj ends
      exact ih (Bindings.same_tail bindings) values d

/-- What is seen of bindings, of which some names are read, and of a context. -/
def seenFrame (V : View) (reads : Symbol → Bool) (x : Bindings × ContextId)
    : Bindings × ContextId :=
  (Bindings.seen V reads x.1, x.2)

include machines in
/-- Bindings made one after the other look alike to a reader if those they start from do, the names
that are yet to be bound aside.
-/
theorem evalPairs {pairs pairs' : List (Symbol × Node)}
    (same : List.Forall₂ (fun pair pair' => seenPair V pair = seenPair V pair') pairs pairs')
    {outer outer' : Bindings}
    (outside : Bindings.seen V (pairsRead pairs) outer = Bindings.seen V (pairsRead pairs) outer')
    {reads : Symbol → Bool}
    (bindings
      : Bindings.seen V (fun s => !(pairs.map (·.1)).contains s && reads s) b
        = Bindings.seen V (fun s => !(pairs.map (·.1)).contains s && reads s) b')
    (c : ContextId)
    : Agree V (seenFrame V reads) (m.evalPairs outer pairs b c)
        (m.evalPairs outer' pairs' b' c) := by
  induction same generalizing b b' c with
  | nil => exact .pure (congrArg (·, c) (by simpa using bindings))
  | @cons pair pair' rest _ first _ ih =>
      obtain ⟨s, n⟩ := pair
      obtain ⟨s', n'⟩ := pair'
      obtain ⟨rfl, node⟩ : s = s' ∧ n.seen V = n'.seen V := Prod.mk.inj first
      have here : Bindings.seen V n.reads outer = Bindings.seen V n.reads outer' :=
        Bindings.same_of_fewer outside fun t read => by simp [pairsRead, read]
      refine ((machines.eval c node here).holdingBindings bindings).bind fun {x y} ends => ?_
      obtain ⟨v, d⟩ := x
      obtain ⟨w, d'⟩ := y
      obtain ⟨values, rfl⟩ : v.seen V = w.seen V ∧ d = d' := Prod.mk.inj ends
      refine ih ?_ (Bindings.insert_same values ?_) d
      · exact Bindings.same_of_fewer outside fun t read => by simp [pairsRead, read]
      · exact Bindings.same_of_fewer bindings fun t read => by simp_all

/-- New closures agree, which are seen alike by what their bodies read. -/
theorem closureOf {body body' : Node} (same : body.seen V = body'.seen V) (params : List Symbol)
    (rest : Option Symbol)
    (bindings
      : Bindings.seen V (fun s => !(params ++ rest.toList).contains s && body.reads s) b
        = Bindings.seen V (fun s => !(params ++ rest.toList).contains s && body.reads s) b')
    (c : ContextId)
    : Agree V (Closure.seen V) (Machine.closureOf params rest body c b)
        (Machine.closureOf params rest body' c b') := by
  have captured := Bindings.eraseAll_same bindings
  refine Run.Agree.newIdentity.bindEq fun identity => .pure ?_
  simp only [Closure.seen, seenCaptured_eq_seen, Node.specialized_same same captured,
    Node.captured_same same captured]

/-- So do new expanders. -/
theorem userExpanderOf {body body' : Node} (same : body.seen V = body'.seen V)
    (continuation : Symbol) (params : List Symbol)
    (bindings
      : Bindings.seen V (fun s => !(params ++ [continuation]).contains s && body.reads s) b
        = Bindings.seen V (fun s => !(params ++ [continuation]).contains s && body.reads s) b')
    : Agree V (UserExpander.seen V) (Machine.userExpanderOf continuation params body b)
        (Machine.userExpanderOf continuation params body' b') := by
  have captured := Bindings.eraseAll_same bindings
  refine Run.Agree.newIdentity.bindEq fun identity => .pure ?_
  simp only [UserExpander.seen, seenCaptured_eq_seen, Node.specialized_same same captured,
    Node.captured_same same captured]

include machines in
/-- Evaluation respects the view. Witness: by the shapes of the nodes; their parts read no more than
they do, the names aside that are bound in them.
-/
theorem evalNode {n n' : Node} (same : n.seen V = n'.seen V)
    (bindings : Bindings.seen V n.reads b = Bindings.seen V n.reads b') (c : ContextId)
    : Agree V (seenState V) (m.evalNode n c b) (m.evalNode n' c b') := by
  have shapes : n.shape.seen V = n'.shape.seen V := by
    rw [← n.shape_seen, same, n'.shape_seen]
  have reads : n.reads = n.shape.reads := funext n.reads_eq
  rw [reads] at bindings
  unfold Machine.evalNode
  generalize n.shape = s, n'.shape = s' at shapes bindings ⊢
  have narrowed {fewer : Symbol → Bool} (narrower : ∀ t, fewer t = true → s.reads t = true) :=
    Bindings.same_of_fewer bindings narrower
  cases Shape.looksLike shapes with
  | constant same => exact .pure (congrArg (·, c) same)
  | lookup s =>
      have values : Option.Rel (fun v w => v.seen V = w.seen V) (b.lexical? s) (b'.lexical? s) := by
        by_cases bare : s.isQualified = true
        · simp only [Bindings.lexical?, if_pos bare]
          exact .none
        · have read : (Shape.lookup s).reads s = true := by simp [Shape.reads, bare]
          refine rel_of_map_eq ?_
          rw [← Bindings.lexical?_seen b read, bindings, Bindings.lexical?_seen b' read]
      dsimp only
      generalize b.lexical? s = o, b'.lexical? s = o' at values ⊢
      cases values with
      | some same => exact .pure (congrArg (·, c) same)
      | none => exact (machines.valueOf c s).bind fun same => .pure (congrArg (·, c) same)
  | apply callee args =>
      refine (machines.compute callee (narrowed fun t read => by simp [Shape.reads, read]) c).bind
        fun callees => ?_
      have spread := machines.computeAll (forall₂_of_map_eq args)
        (narrowed fun t read => by simp [Shape.reads, read]) c
      refine (spread.holdingOne callees).bind fun values => ?_
      exact (machines.call c callees values).bind fun same => .pure (congrArg (·, c) same)
  | define s expr =>
      have captured := Node.bindings_specialized bindings
      exact (machines.define (Node.specialized_same expr bindings) captured c s).bindEq fun _ =>
        .pure rfl
  | sequence body => exact machines.evalSequence (forall₂_of_map_eq body) bindings rfl c
  | conditional tests yes no =>
      refine (machines.eval c tests (narrowed fun t read => by simp [Shape.reads, read])).bind
        fun {x y} ends => ?_
      obtain ⟨v, d⟩ := x
      obtain ⟨w, d'⟩ := y
      obtain ⟨values, rfl⟩ : v.seen V = w.seen V ∧ d = d' := Prod.mk.inj ends
      have truthy : v.isTruthy = w.isTruthy := by rw [← v.isTruthy_seen, values, w.isTruthy_seen]
      dsimp only
      rw [truthy]
      split
      · exact (machines.eval d yes
          (narrowed fun t read => by simp [Shape.reads, read])).holdingOne values
      · exact (machines.eval d no
          (narrowed fun t read => by simp [Shape.reads, read])).holdingOne values
  | @binding pairs _ body _ bound same =>
      let inner : Symbol → Bool := fun t => !(pairs.map (·.1)).contains t && body.reads t
      have inside : Bindings.seen V inner b = Bindings.seen V inner b' :=
        narrowed fun t read => by
          dsimp only [inner] at read
          rw [Shape.reads, read, Bool.or_true]
      refine (machines.evalPairs (forall₂_of_map_eq bound)
        (narrowed fun t read => by simp [Shape.reads, read]) inside c).bind fun {x y} ends => ?_
      obtain ⟨inner, d⟩ := x
      obtain ⟨inner', d'⟩ := y
      obtain ⟨frames, rfl⟩ := Prod.mk.inj ends
      exact machines.eval d same frames
  | lambda params rest body =>
      exact (closureOf body params rest bindings c).bind fun same =>
        .pure (by simp [seenState, same])
  | expander continuation params body =>
      exact (userExpanderOf body continuation params bindings).bind fun same =>
        .pure (by simp [seenState, same])
  | quote _ form => exact .pure (congrArg (·, c) form)
  | vector items | list items =>
      exact (machines.computeAll (forall₂_of_map_eq items) bindings c).bind fun values =>
        .pure (by simp [seenState, values])
  | set items =>
      refine (machines.computeAll (forall₂_of_map_eq items) bindings c).bind fun {vs ws} values => ?_
      rw [(forall₂_of_map_eq values).length_eq]
      exact (Run.Agree.arrangementIf _).bindEq fun a =>
        .pure (by simp [seenState, ← Value.setOf_seen, values])
  | hashMap items =>
      refine (machines.computeAll (forall₂_of_map_eq items) bindings c).bind fun {vs ws} values => ?_
      rw [(forall₂_of_map_eq values).length_eq]
      refine (Run.Agree.arrangementIf _).bindEq fun a => ?_
      have maps : Option.Rel (fun v w => v.seen V = w.seen V) (mapOfItems? a vs)
          (mapOfItems? a ws) := by
        refine rel_of_map_eq ?_
        rw [← mapOfItems?_seen, values, mapOfItems?_seen]
      generalize mapOfItems? a vs = o, mapOfItems? a ws = o' at maps ⊢
      cases maps with
      | some same => exact .pure (congrArg (·, c) same)
      | none => exact .fail rfl
  | invoke member target args =>
      refine (machines.compute target (narrowed fun t read => by simp [Shape.reads, read]) c).bind
        fun targets => ?_
      have spread := machines.computeAll (forall₂_of_map_eq args)
        (narrowed fun t read => by simp [Shape.reads, read]) c
      refine (spread.holdingOne targets).bind fun values => ?_
      refine (Run.Agree.askHost fun host respects => ?_).bind fun same =>
        .pure (congrArg (·, c) same)
      exact respects.invoke_same targets member.name values
  | invokeStatic type member args =>
      refine (machines.computeAll (forall₂_of_map_eq args) bindings c).bind fun values => ?_
      refine (Run.Agree.askHost fun host respects => ?_).bind fun same =>
        .pure (congrArg (·, c) same)
      exact respects.invokeStatic_same type member.name values
  | cast type expr =>
      refine (machines.compute expr bindings c).bind fun values => .get fun stores respects => ?_
      rw [← Store.host_same stores]
      exact (Run.Agree.ofExcept (respects.cast_same type values)).bind fun same =>
        .pure (congrArg (·, c) same)
  | instanceOf type expr =>
      refine (machines.compute type (narrowed fun t read => by simp [Shape.reads, read]) c).bind
        fun types => ?_
      cases Value.looksLike types with
      | type name =>
          refine (machines.compute expr (narrowed fun t read => by simp [Shape.reads, read]) c).bind
            fun values => .get fun stores respects => .pure ?_
          rw [← Store.host_same stores, respects.isInstance_same name values]
      | _ => exact .fail rfl

end Machine.Respects

end IncrementalLisp
